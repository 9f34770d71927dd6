import Mathlib.Data.List.Basic
import Mathlib.Data.List.TakeWhile
import TableServer.Client.Users
import TableServer.Proofs.Http.PathAndQuery
import TableServer.Proofs.Users.Routing

/-! The address of a user as the client writes it, with the id in it as it is. What the address
leads to is what is left of the id when the text has been read as a URL: without blanks at its end,
cut at a question mark or a number sign, taken apart at slashes, and with its dots resolved. -/

namespace TableServer

theorem PathQuery.text_of_read? {text : List Char} {pathQuery : PathQuery}
    (read : PathQuery.read? text = some pathQuery) (filled : text ≠ [])
    (noFragment : '#' ∉ text) : pathQuery.text = String.ofList text := by
  simp only [PathQuery.read?] at read
  split at read
  · obtain ⟨query, readQuery, rfl⟩ := Option.map_eq_some_iff.mp read
    have isQuery : (queryText query).toList = text.dropWhile (!endsPath ·) := by
      have stops := List.head?_dropWhile_not (!endsPath ·) text
      have within := (List.dropWhile_sublist (l := text) (!endsPath ·)).subset
      cases rest : text.dropWhile (!endsPath ·) with
      | nil =>
        rw [rest] at readQuery
        cases readQuery
        rfl
      | cons c others =>
        rw [rest] at readQuery within stops
        simp only [List.head?_cons, Bool.not_eq_false', endsPath, Bool.or_eq_true,
          beq_iff_eq] at stops
        rcases stops with rfl | rfl
        · have whole : others.takeWhile (· != '#') = others :=
            takeWhile_of_absent fun member => noFragment (within (List.mem_cons_of_mem _ member))
          simp only [readQuery?, whole] at readQuery
          split at readQuery
          · cases readQuery
            simp [queryText]
          · cases readQuery
        · exact absurd (within List.mem_cons_self) noFragment
    have joined : String.ofList (text.takeWhile (!endsPath ·)) ++ queryText query =
        String.ofList text := by
      rw [← String.toList_inj, String.toList_append, String.toList_ofList, isQuery,
        List.takeWhile_append_dropWhile, String.toList_ofList]
    simp only [PathQuery.text, joined]
    exact if_neg (by simpa using filled)
  · cases read

theorem Uri.target_of_read? {text : String} {rest : List Char} {uri : Uri}
    (read : Uri.read? text = some uri) (rooted : text.toList = '/' :: rest)
    (noFragment : '#' ∉ text.toList) : uri.target = text := by
  rw [Uri.read?] at read
  split at read
  · cases read
  · rw [rooted] at read noFragment
    obtain ⟨pathQuery, readPath, rfl⟩ := Option.map_eq_some_iff.mp read
    have whole := PathQuery.text_of_read? readPath (List.cons_ne_nil _ _) noFragment
    rw [← rooted, String.ofList_toList] at whole
    exact whole

namespace Url

theorem not_of_mem_splitOnP {isSeparator : Char → Bool} {text piece : List Char}
    (isPiece : piece ∈ text.splitOnP isSeparator) : ∀ c ∈ piece, isSeparator c = false := by
  induction text generalizing piece with
  | nil =>
    rw [List.splitOnP_nil, List.mem_singleton] at isPiece
    simp [isPiece]
  | cons first rest ih =>
    rw [List.splitOnP_cons_eq_if_modifyHead] at isPiece
    split at isPiece
    · rcases List.mem_cons.mp isPiece with rfl | isPiece
      · simp
      · exact ih isPiece
    · rename_i kept
      obtain ⟨head, others, split⟩ := List.exists_cons_of_ne_nil (List.splitOnP_ne_nil isSeparator rest)
      rw [split] at ih
      rw [split, List.modifyHead_cons] at isPiece
      rcases List.mem_cons.mp isPiece with rfl | isPiece
      · intro c member
        rcases List.mem_cons.mp member with rfl | member
        · simpa using kept
        · exact ih List.mem_cons_self c member
      · exact ih (List.mem_cons_of_mem head isPiece)

theorem mem_percentEncoded {byte : UInt8} {c : Char} (member : c ∈ Query.percentEncoded byte) :
    c = '%' ∨ ∃ value < 16, c = Query.upperHexDigit value := by
  have bound := byte.toNat_lt
  simp only [Query.percentEncoded, List.mem_cons, List.not_mem_nil, or_false] at member
  rcases member with rfl | rfl | rfl
  · exact Or.inl rfl
  · exact Or.inr ⟨byte.toNat / 16, by omega, rfl⟩
  · exact Or.inr ⟨byte.toNat % 16, by omega, rfl⟩

theorem mem_encodeChars {marks text : List Char} {c : Char}
    (member : c ∈ (encodeChars marks text).toList) :
    c ∈ text ∧ isAlwaysEncoded c = false ∧ c ∉ marks ∨
      c = '%' ∨ ∃ value < 16, c = Query.upperHexDigit value := by
  rw [encodeChars, String.toList_ofList, List.mem_flatMap] at member
  obtain ⟨source, isSource, member⟩ := member
  split at member
  · obtain ⟨byte, _, member⟩ := List.mem_flatMap.mp member
    exact Or.inr (mem_percentEncoded member)
  · rename_i kept
    rw [List.mem_singleton] at member
    subst member
    simp only [Bool.or_eq_true, not_or, Bool.not_eq_true, List.contains_eq_mem,
      decide_eq_false_iff_not] at kept
    exact Or.inl ⟨isSource, kept.1, kept.2⟩

theorem hexDigit_ne {value : Nat} (bound : value < 16) :
    Query.upperHexDigit value ≠ '/' ∧ Query.upperHexDigit value ≠ '?' ∧
      Query.upperHexDigit value ≠ '#' ∧ Query.upperHexDigit value ≠ '\n' := by
  revert value
  decide

theorem encodeChars_of_values {marks text : List Char}
    (values : ∀ c ∈ (encodeChars marks text).toList, Template.isValueChar c = true) :
    (encodeChars marks text).toList = text := by
  rw [encodeChars, String.toList_ofList] at values ⊢
  induction text with
  | nil => rfl
  | cons c rest ih =>
    rw [List.flatMap_cons] at values ⊢
    rw [ih fun later isLater => values later (List.mem_append_right _ isLater)]
    split
    · rename_i encoded
      obtain ⟨byte, others, bytes⟩ :=
        List.exists_cons_of_ne_nil (String.utf8EncodeChar_ne_nil (c := c))
      have escape : '%' ∈ (String.utf8EncodeChar c).flatMap Query.percentEncoded := by
        rw [bytes]
        simp [Query.percentEncoded]
      rw [if_pos encoded] at values
      have impossible := values '%' (List.mem_append_left _ escape)
      exact absurd impossible (by decide)
    · rfl

theorem isValueChar_bounds {c : Char} (allowed : Template.isValueChar c = true) :
    0x2D ≤ c.toNat ∧ c.toNat ≤ 0x39 ∨ 0x5F ≤ c.toNat ∧ c.toNat ≤ 0x7A := by
  simp only [Template.isValueChar, Bool.or_eq_true, Bool.and_eq_true, decide_eq_true_eq,
    beq_iff_eq] at allowed
  rcases allowed with ((⟨low, high⟩ | ⟨low, high⟩) | rfl) | rfl
  · have above : 0x61 ≤ c.toNat := low
    have below : c.toNat ≤ 0x7A := high
    omega
  · have above : 0x30 ≤ c.toNat := low
    have below : c.toNat ≤ 0x39 := high
    omega
  · decide
  · decide

theorem isValue_users : Template.IsValue "users".toList :=
  ⟨by decide, List.all_eq_true.mp (by decide)⟩

theorem isSlash_of_isValue {text : List Char} (isValue : Template.IsValue text) :
    ∀ c ∈ text, isSlash c = false := by
  intro c member
  have allowed := isValue.2 c member
  rw [isSlash, Bool.or_eq_false_iff, beq_eq_false_iff_ne, beq_eq_false_iff_ne]
  refine ⟨?_, ?_⟩ <;> rintro rfl <;> exact absurd allowed (by decide)

theorem encodeChars_of_isValue {text : List Char} (isValue : Template.IsValue text) :
    encodeChars pathMarks text = String.ofList text := by
  have kept : ∀ c ∈ text, (isAlwaysEncoded c || pathMarks.contains c) = false := by
    intro c member
    have allowed := isValue.2 c member
    have bounds := isValueChar_bounds allowed
    have unmarked : c ∉ pathMarks := fun marked => by
      have refused : (pathMarks.all fun mark => !Template.isValueChar mark) = true := by decide
      have noValue := List.all_eq_true.mp refused c marked
      simp [allowed] at noValue
    simp [isAlwaysEncoded, unmarked]
    omega
  rw [encodeChars]
  refine congrArg String.ofList ?_
  refine (List.flatMap_congr fun c member => ?_).trans (List.flatMap_singleton' text)
  rw [kept c member]
  rfl

theorem asciiLower_of_isValue {value : String} (isValue : Template.IsValue value.toList) :
    asciiLower value = value := by
  have same : ∀ c ∈ value.toList, c.toLower = c := by
    intro c member
    have bounds := isValueChar_bounds (isValue.2 c member)
    refine dif_neg ?_
    rintro ⟨low, high⟩
    have above : 0x41 ≤ c.toNat := low
    have below : c.toNat ≤ 0x5A := high
    omega
  rw [asciiLower, List.map_congr_left same, List.map_id', String.ofList_toList]

/-- A value is a name of its own in a path, as dots are not. -/
theorem resolve_value {value : String} (isValue : Template.IsValue value.toList)
    (resolved : List String) : resolve resolved [value] = resolved ++ [value] := by
  have refused {forms : List String}
      (noValue : ∀ form ∈ forms, form.toList.all Template.isValueChar = false) :
      forms.contains value = false := by
    rw [List.contains_eq_mem, decide_eq_false_iff_not]
    intro isForm
    have allowed : value.toList.all Template.isValueChar = true := List.all_eq_true.mpr isValue.2
    rw [noValue value isForm] at allowed
    cases allowed
  have notDouble : isDoubleDot value = false := by
    rw [isDoubleDot, asciiLower_of_isValue isValue]
    exact refused (by decide)
  have notSingle : isDot value = false := by
    rw [isDot, asciiLower_of_isValue isValue]
    exact refused (by decide)
  rw [resolve, notDouble, notSingle]
  rfl

theorem mem_resolve {resolved pending : List String} {segment : String}
    (member : segment ∈ resolve resolved pending) :
    segment ∈ resolved ∨ segment ∈ pending ∨ segment = "" := by
  fun_induction resolve resolved pending with
  | case1 resolved => exact Or.inl member
  | case2 resolved last isDouble =>
    rcases List.mem_append.mp member with member | member
    · exact Or.inl (List.dropLast_subset resolved member)
    · exact Or.inr (Or.inr (List.mem_singleton.mp member))
  | case3 resolved last _ isDot =>
    rcases List.mem_append.mp member with member | member
    · exact Or.inl member
    · exact Or.inr (Or.inr (List.mem_singleton.mp member))
  | case4 resolved last =>
    rcases List.mem_append.mp member with member | member
    · exact Or.inl member
    · exact Or.inr (Or.inl member)
  | case5 resolved first rest _ isDouble ih =>
    rcases ih member with member | member | empty
    · exact Or.inl (List.dropLast_subset resolved member)
    · exact Or.inr (Or.inl (List.mem_cons_of_mem first member))
    · exact Or.inr (Or.inr empty)
  | case6 resolved first rest _ _ isDot ih =>
    rcases ih member with member | member | empty
    · exact Or.inl member
    · exact Or.inr (Or.inl (List.mem_cons_of_mem first member))
    · exact Or.inr (Or.inr empty)
  | case7 resolved first rest _ _ _ ih =>
    rcases ih member with member | member | empty
    · rcases List.mem_append.mp member with member | member
      · exact Or.inl member
      · exact Or.inr (Or.inl (List.mem_singleton.mp member ▸ List.mem_cons_self))
    · exact Or.inr (Or.inl (List.mem_cons_of_mem first member))
    · exact Or.inr (Or.inr empty)

def IsSegment (segment : String) : Prop :=
  ∀ c ∈ segment.toList, c ≠ '/' ∧ c ≠ '?' ∧ c ≠ '#'

theorem isSegment_encodeChars {piece : List Char} (whole : ∀ c ∈ piece, isSlash c = false) :
    IsSegment (encodeChars pathMarks piece) := by
  intro c member
  rcases mem_encodeChars member with ⟨inPiece, _, unmarked⟩ | rfl | ⟨value, bound, rfl⟩
  · have apart := whole c inPiece
    refine ⟨?_, ?_, ?_⟩ <;> rintro rfl
    · exact absurd apart (by decide)
    · exact absurd unmarked (by decide)
    · exact absurd unmarked (by decide)
  · decide
  · obtain ⟨noSlash, noQuestion, noNumber, _⟩ := hexDigit_ne bound
    exact ⟨noSlash, noQuestion, noNumber⟩

theorem not_mem_query (query : List Char) :
    '#' ∉ (encodeChars queryMarks query).toList ∧ '\n' ∉ (encodeChars queryMarks query).toList := by
  constructor <;> intro member
  · rcases mem_encodeChars member with ⟨_, _, unmarked⟩ | percent | ⟨value, bound, digit⟩
    · exact absurd unmarked (by decide)
    · exact absurd percent (by decide)
    · exact (hexDigit_ne bound).2.2.1 digit.symm
  · rcases mem_encodeChars member with ⟨_, kept, _⟩ | percent | ⟨value, bound, digit⟩
    · exact absurd kept (by decide)
    · exact absurd percent (by decide)
    · exact (hexDigit_ne bound).2.2.2 digit.symm

def tidied (text : List Char) : List Char :=
  (text.reverse.dropWhile fun c => decide (c.toNat ≤ 0x20)).reverse.filter fun c =>
    c != '\t' && c != '\n' && c != '\r'

theorem dropWhile_append_of_none {drops : Char → Bool} {kept : List Char}
    (stays : ∀ c ∈ kept, drops c = false) (filled : kept ≠ []) (rest : List Char) :
    (kept ++ rest).dropWhile drops = kept ++ rest := by
  obtain ⟨first, others, rfl⟩ := List.exists_cons_of_ne_nil filled
  rw [List.cons_append, List.dropWhile_cons_of_neg]
  simp [stays first List.mem_cons_self]

theorem tidied_append {lead : List Char} (visible : ∀ c ∈ lead, 0x20 < c.toNat)
    (text : List Char) : tidied (lead ++ text) = lead ++ tidied text := by
  have noEdge : ∀ c ∈ lead.reverse, decide (c.toNat ≤ 0x20) = false := fun c member => by
    simpa using visible c (List.mem_reverse.mp member)
  have keptAtEnd : lead.reverse.dropWhile (fun c => decide (c.toNat ≤ 0x20)) = lead.reverse := by
    rw [List.dropWhile_eq_self_iff]
    intro filled
    rw [noEdge _ (List.getElem_mem filled)]
    exact Bool.false_ne_true
  have keptByFilter : (lead.filter fun c => c != '\t' && c != '\n' && c != '\r') = lead := by
    refine List.filter_eq_self.mpr fun c member => ?_
    have above := visible c member
    simp only [Bool.and_eq_true, bne_iff_ne]
    refine ⟨⟨?_, ?_⟩, ?_⟩ <;> rintro rfl <;> exact absurd above (by decide)
  simp only [tidied]
  rw [List.reverse_append, List.dropWhile_append, keptAtEnd]
  split
  · rename_i empty
    rw [List.isEmpty_iff] at empty
    rw [empty, List.reverse_reverse, keptByFilter]
    simp
  · rw [List.reverse_append, List.reverse_reverse, List.filter_append, keptByFilter]

theorem cleaned_append {lead : List Char} (visible : ∀ c ∈ lead, 0x20 < c.toNat)
    (filled : lead ≠ []) (text : List Char) : cleaned (lead ++ text) = lead ++ tidied text := by
  have noEdge : ∀ c ∈ lead, decide (c.toNat ≤ 0x20) = false := fun c member => by
    simpa using visible c member
  have same : cleaned (lead ++ text) = tidied (lead ++ text) := by
    simp only [cleaned, tidied]
    rw [dropWhile_append_of_none noEdge filled]
  rw [same, tidied_append visible]

theorem splitScheme?_append {scheme : String} (isWeb : scheme = "http" ∨ scheme = "https")
    {rest : List Char} (stays : rest.dropWhile isSlash = rest) :
    splitScheme? (scheme.toList ++ ("://".toList ++ rest)) = some (scheme, rest) := by
  have slashes : ("//".toList ++ rest).dropWhile isSlash = rest := by
    rw [List.dropWhile_append_of_pos (List.all_eq_true.mp (by decide)), stays]
  have noColon : ∀ c ∈ scheme.toList, (c != ':') = true := by
    rw [← List.all_eq_true]
    rcases isWeb with rfl | rfl <;> decide
  have isLower : asciiLower scheme = scheme := by
    rcases isWeb with rfl | rfl <;> decide
  have afterScheme : "://".toList = ':' :: "//".toList := rfl
  rw [splitScheme?, List.takeWhile_append_of_pos noColon, List.dropWhile_append_of_pos noColon,
    afterScheme, List.cons_append, List.takeWhile_cons_of_neg (by decide),
    List.dropWhile_cons_of_neg (by decide), List.append_nil, String.ofList_toList, isLower]
  simp only [slashes]
  rcases isWeb with rfl | rfl <;> rfl

def IsHost (host : List Char) : Prop :=
  host ≠ [] ∧ ∀ c ∈ host, 0x20 < c.toNat ∧ isSlash c = false ∧ c ≠ '?' ∧ c ≠ '#'

theorem read?_of_split {text scheme : String} {host path : List Char} (isHost : IsHost host)
    (split : splitScheme? (cleaned text.toList) = some (scheme, host ++ '/' :: path)) :
    ∃ query, read? text = some ⟨scheme, asciiLower (String.ofList host),
        segmentsOf ('/' :: (path.takeWhile (· != '#')).takeWhile (· != '?')), query⟩ ∧
      ∀ text ∈ query, ∃ source, text = encodeChars queryMarks source := by
  have noSlash : ∀ c ∈ host, (!isSlash c) = true := fun c member => by
    rw [(isHost.2 c member).2.1]
    rfl
  have noQuestion : ∀ c ∈ host, (c != '?') = true := fun c member => by
    simpa using (isHost.2 c member).2.2.1
  have noNumber : ∀ c ∈ host, (c != '#') = true := fun c member => by
    simpa using (isHost.2 c member).2.2.2
  have filled : (String.ofList host).toList.isEmpty = false := by simpa using isHost.1
  have whole : (host ++ '/' :: path).takeWhile (· != '#') =
      host ++ '/' :: path.takeWhile (· != '#') := by
    rw [List.takeWhile_append_of_pos noNumber, List.takeWhile_cons_of_pos (by decide)]
  have beforeQuery : (host ++ '/' :: path.takeWhile (· != '#')).takeWhile (· != '?') =
      host ++ '/' :: (path.takeWhile (· != '#')).takeWhile (· != '?') := by
    rw [List.takeWhile_append_of_pos noQuestion, List.takeWhile_cons_of_pos (by decide)]
  generalize (path.takeWhile (· != '#')).takeWhile (· != '?') = kept at beforeQuery
  have hostEnds : (host ++ '/' :: kept).takeWhile (!isSlash ·) = host := by
    rw [List.takeWhile_append_of_pos noSlash, List.takeWhile_cons_of_neg (by decide),
      List.append_nil]
  have pathBegins : (host ++ '/' :: kept).dropWhile (!isSlash ·) = '/' :: kept := by
    rw [List.dropWhile_append_of_pos noSlash, List.dropWhile_cons_of_neg (by decide)]
  simp only [read?, split, whole, beforeQuery, hostEnds, pathBegins]
  rw [if_neg (by simpa using isHost.1)]
  refine ⟨_, rfl, ?_⟩
  intro text isQuery
  split at isQuery
  · exact ⟨_, (Option.mem_some.mp isQuery).symm⟩
  · cases isQuery

theorem toList_intercalate_slash (segments : List String) :
    ("/".intercalate segments).toList = ['/'].intercalate (segments.map String.toList) :=
  String.toList_intercalate

theorem intercalate_slash_inj {segments others : List String}
    (apart : ∀ segment ∈ segments, IsSegment segment) (filled : segments ≠ [])
    (apartToo : ∀ segment ∈ others, IsSegment segment) (filledToo : others ≠ [])
    (same : "/".intercalate segments = "/".intercalate others) : segments = others := by
  have splits {pieces : List String} (apart : ∀ segment ∈ pieces, IsSegment segment)
      (filled : pieces ≠ []) :
      ("/".intercalate pieces).toList.splitOn '/' = pieces.map String.toList := by
    rw [toList_intercalate_slash]
    refine List.splitOn_intercalate '/' ?_ (by simpa using filled)
    intro piece member
    obtain ⟨segment, isSegment, rfl⟩ := List.mem_map.mp member
    exact fun slash => (apart segment isSegment '/' slash).1 rfl
  have mapped := splits apart filled
  rw [same, splits apartToo filledToo] at mapped
  exact (List.map_injective_iff.mpr (fun _ _ => String.toList_inj.mp) mapped).symm

theorem not_mem_path {mark : Char} (notSlash : mark ≠ '/') {segments : List String}
    (absent : ∀ segment ∈ segments, mark ∉ segment.toList) :
    mark ∉ ("/".intercalate segments).toList := by
  rw [toList_intercalate_slash]
  induction segments with
  | nil => simp
  | cons first rest ih =>
    have inFirst := absent first List.mem_cons_self
    have inRest := ih fun segment member => absent segment (List.mem_cons_of_mem first member)
    cases rest with
    | nil => simpa using inFirst
    | cons second others =>
      rw [List.map_cons, List.map_cons, List.intercalate_cons_cons, ← List.map_cons]
      simp only [List.mem_append, List.mem_singleton, not_or]
      exact ⟨⟨inFirst, notSlash⟩, inRest⟩

theorem question_not_mem_path {segments : List String}
    (apart : ∀ segment ∈ segments, IsSegment segment) :
    '?' ∉ ("/".intercalate segments).toList :=
  not_mem_path (by decide) fun segment isSegment member =>
    (apart segment isSegment '?' member).2.1 rfl

theorem target_toList (url : Url) :
    url.target.toList = '/' :: (("/".intercalate url.segments).toList ++
      (PathQuery.queryText url.query).toList) := by
  simp only [target, String.toList_append, PathQuery.queryText]
  rfl

theorem number_not_mem_target {url : Url} (apart : ∀ segment ∈ url.segments, IsSegment segment)
    (noFragment : ∀ query ∈ url.query, '#' ∉ query.toList) : '#' ∉ url.target.toList := by
  have inPath : '#' ∉ ("/".intercalate url.segments).toList :=
    not_mem_path (by decide) fun segment isSegment member =>
      (apart segment isSegment '#' member).2.2 rfl
  have inQuery : '#' ∉ (PathQuery.queryText url.query).toList := by
    cases asked : url.query with
    | none => decide
    | some query => simpa [PathQuery.queryText] using noFragment query asked
  rw [target_toList]
  simp only [List.mem_cons, List.mem_append, not_or]
  exact ⟨by decide, inPath, inQuery⟩

theorem isSegment_of_isValue {value : String} (isValue : Template.IsValue value.toList) :
    IsSegment value := by
  intro c member
  have allowed := isValue.2 c member
  refine ⟨?_, ?_, ?_⟩ <;> rintro rfl <;> exact absurd allowed (by decide)

theorem atMember_target_iff {url : Url} (apart : ∀ segment ∈ url.segments, IsSegment segment)
    (oneLine : ∀ query ∈ url.query, '\n' ∉ query.toList) (id : String) :
    Users.AtMember url.target id ↔
      url.segments = ["users", id] ∧ Template.IsValue id.toList := by
  have joined : '/' :: ("/".intercalate ["users", id]).toList = "/users/".toList ++ id.toList := by
    rw [toList_intercalate_slash, List.map_cons, List.map_cons, List.map_nil,
      List.intercalate_cons_cons, List.intercalate_singleton]
    rfl
  have isSuffix : Template.IsSuffix (PathQuery.queryText url.query).toList := by
    cases asked : url.query with
    | none => exact Or.inl rfl
    | some query => exact Or.inr ⟨query.toList, by simp [PathQuery.queryText], oneLine query asked⟩
  rw [Users.AtMember, and_comm]
  refine and_congr_left fun isValue => ?_
  have apartToo : ∀ segment ∈ ["users", id], IsSegment segment := by
    intro segment member
    simp only [List.mem_cons, List.not_mem_nil, or_false] at member
    rcases member with rfl | rfl
    · exact isSegment_of_isValue isValue_users
    · exact isSegment_of_isValue isValue
  constructor
  · rintro ⟨suffix, isQuery, shape⟩
    rw [target_toList, ← List.append_assoc, ← joined, List.cons_append, List.cons_inj_right] at shape
    have same := congrArg (List.takeWhile (· != '?')) shape
    rw [Template.takeWhile_path (question_not_mem_path apart) isSuffix,
      Template.takeWhile_path (question_not_mem_path apartToo) isQuery, String.toList_inj] at same
    have filled : url.segments ≠ [] := by
      intro empty
      have texts := congrArg String.toList same
      rw [empty] at texts
      have wrong := congrArg ('/' :: ·) texts
      simp only [joined] at wrong
      simp at wrong
    exact intercalate_slash_inj apart filled apartToo (List.cons_ne_nil _ _) same
  · intro segments
    refine ⟨_, isSuffix, ?_⟩
    rw [target_toList, segments, ← List.cons_append, joined, List.append_assoc]

end Url

namespace Client

open Url

/-- The address of a server: scheme and host, maybe with slashes after them. -/
def IsBase (base : String) : Prop :=
  ∃ scheme host slashes, (scheme = "http" ∨ scheme = "https") ∧ IsHost host ∧
    (∀ c ∈ slashes, c = '/') ∧ base.toList = scheme.toList ++ ("://".toList ++ (host ++ slashes))

def pathOf (id : String) : List Char :=
  ((tidied id.toList).takeWhile (· != '#')).takeWhile (· != '?')

/-- What is left of the address of a user when it has been read. -/
def segmentsFor (id : String) : List String :=
  resolve ["users"] (((pathOf id).splitOnP isSlash).map (encodeChars pathMarks))

/-- Nothing in the id means anything in a URL. -/
def Plain (id : String) : Prop :=
  (∀ c ∈ id.toList, c ∉ ['/', '\\', '?', '#', '\t', '\n', '\r']) ∧
    ∀ c ∈ id.toList.getLast?, 0x20 < c.toNat

theorem segmentsOf_users (path : List Char) :
    segmentsOf ('/' :: ("users/".toList ++ path)) =
      resolve ["users"] ((path.splitOnP isSlash).map (encodeChars pathMarks)) := by
  have pathBegins : "users/".toList ++ path = "users".toList ++ '/' :: path := by
    rw [List.append_cons]
    rfl
  have pieces : ('/' :: ("users/".toList ++ path)).splitOnP isSlash =
      [] :: "users".toList :: path.splitOnP isSlash := by
    rw [List.splitOnP_cons_eq_if_modifyHead, if_pos (by decide), pathBegins,
      List.splitOnP_append_cons_of_forall_mem (isSlash_of_isValue isValue_users) '/' (by decide)]
  have users : encodeChars pathMarks "users".toList = "users" :=
    encodeChars_of_isValue isValue_users
  obtain ⟨first, rest, split⟩ := List.exists_cons_of_ne_nil (List.splitOnP_ne_nil isSlash path)
  rw [segmentsOf, pieces, split]
  simp only [List.isEmpty_cons, Bool.false_eq_true, if_false, List.map_cons, users]
  rfl

theorem isSegment_segmentsFor (id : String) : ∀ segment ∈ segmentsFor id, IsSegment segment := by
  intro segment member
  rcases mem_resolve member with member | member | rfl
  · rw [List.mem_singleton.mp member]
    exact isSegment_of_isValue isValue_users
  · obtain ⟨piece, isPiece, rfl⟩ := List.mem_map.mp member
    exact isSegment_encodeChars (not_of_mem_splitOnP isPiece)
  · intro c impossible
    cases impossible

theorem userUrl_toList {host slashes : List Char} {scheme base : String} (isHost : IsHost host)
    (onlySlashes : ∀ c ∈ slashes, c = '/')
    (shape : base.toList = scheme.toList ++ ("://".toList ++ (host ++ slashes))) (id : String) :
    (userUrl base id).toList =
      scheme.toList ++ ("://".toList ++ (host ++ "/users/".toList)) ++ id.toList := by
  have hostStays : ∀ c ∈ host.reverse, (c == '/') = false := by
    intro c member
    have apart := (isHost.2 c (List.mem_reverse.mp member)).2.1
    simp only [isSlash, Bool.or_eq_false_iff] at apart
    exact apart.1
  have hostFilled : host.reverse ≠ [] := by simpa using isHost.1
  have slashesGo : ∀ c ∈ slashes.reverse, (c == '/') = true := by
    intro c member
    rw [onlySlashes c (List.mem_reverse.mp member)]
    rfl
  have trimmed : (trimSlashes base).toList = scheme.toList ++ ("://".toList ++ host) := by
    rw [trimSlashes, String.toList_ofList, shape]
    simp only [List.reverse_append, List.append_assoc]
    rw [List.dropWhile_append_of_pos slashesGo, dropWhile_append_of_none hostStays hostFilled]
    simp
  rw [userUrl, usersUrl]
  simp only [String.toList_append, trimmed, List.append_assoc]
  rfl

theorem read?_userUrl {base : String} (isBase : IsBase base) (id : String) :
    ∃ url, Url.read? (userUrl base id) = some url ∧ url.segments = segmentsFor id ∧
      ∀ text ∈ url.query, '#' ∉ text.toList ∧ '\n' ∉ text.toList := by
  obtain ⟨scheme, host, slashes, isWeb, isHost, onlySlashes, shape⟩ := isBase
  have visible : ∀ c ∈ scheme.toList ++ ("://".toList ++ (host ++ "/users/".toList)),
      0x20 < c.toNat := by
    have fixed : (∀ c ∈ scheme.toList, 0x20 < c.toNat) ∧ (∀ c ∈ "://".toList, 0x20 < c.toNat) ∧
        ∀ c ∈ "/users/".toList, 0x20 < c.toNat := by
      rcases isWeb with rfl | rfl <;> simp
    simp only [List.mem_append]
    rintro c (member | member | member | member)
    · exact fixed.1 c member
    · exact fixed.2.1 c member
    · exact (isHost.2 c member).1
    · exact fixed.2.2 c member
  have cleanedUrl : cleaned (userUrl base id).toList =
      scheme.toList ++ ("://".toList ++ (host ++ ("/users/".toList ++ tidied id.toList))) := by
    rw [userUrl_toList isHost onlySlashes shape, cleaned_append visible (by simp)]
    simp only [List.append_assoc]
  have split := splitScheme?_append isWeb
    (dropWhile_append_of_none (fun c member => (isHost.2 c member).2.1) isHost.1
      ("/users/".toList ++ tidied id.toList))
  have pathBegins : "/users/".toList = '/' :: "users/".toList := rfl
  rw [← cleanedUrl, pathBegins, List.cons_append] at split
  obtain ⟨query, read, encoded⟩ := read?_of_split isHost split
  rw [List.takeWhile_append_of_pos (List.all_eq_true.mp (by decide)),
    List.takeWhile_append_of_pos (List.all_eq_true.mp (by decide)), segmentsOf_users] at read
  refine ⟨_, read, rfl, ?_⟩
  intro text isQuery
  obtain ⟨source, rfl⟩ := encoded text isQuery
  exact not_mem_query source

theorem segmentsFor_of_cut {value : String} (isValue : Template.IsValue value.toList) {mark : Char}
    (cuts : mark = '?' ∨ mark = '#') (rest : List Char) {id : String}
    (shape : id.toList = value.toList ++ mark :: rest) : segmentsFor id = ["users", value] := by
  have isSegment := isSegment_of_isValue isValue
  have noNumber : '#' ∉ value.toList := fun member => (isSegment '#' member).2.2 rfl
  have noQuestion : '?' ∉ value.toList := fun member => (isSegment '?' member).2.1 rfl
  have visible : ∀ c ∈ value.toList ++ [mark], 0x20 < c.toNat := by
    intro c member
    rcases List.mem_append.mp member with member | member
    · have bounds := isValueChar_bounds (isValue.2 c member)
      omega
    · rw [List.mem_singleton.mp member]
      rcases cuts with rfl | rfl <;> decide
  have path : pathOf id = value.toList := by
    rw [pathOf, shape, List.append_cons, tidied_append visible, List.append_assoc,
      List.takeWhile_append_of_pos (ne_of_absent noNumber)]
    rcases cuts with rfl | rfl
    · rw [List.singleton_append, List.takeWhile_cons_of_pos (by decide),
        List.takeWhile_append_of_pos (ne_of_absent noQuestion),
        List.takeWhile_cons_of_neg (by decide), List.append_nil]
    · rw [List.singleton_append, List.takeWhile_cons_of_neg (by decide), List.append_nil,
        takeWhile_of_absent noQuestion]
  have whole : value.toList.splitOnP isSlash = [value.toList] :=
    List.splitOnP_eq_singleton (isSlash_of_isValue isValue)
  rw [segmentsFor, path, whole, List.map_singleton, encodeChars_of_isValue isValue,
    String.ofList_toList, resolve_value isValue]
  rfl

theorem pathOf_of_plain {id : String} (plain : Plain id) : pathOf id = id.toList := by
  have keeps {c : Char} (special : c ∈ ['/', '\\', '?', '#', '\t', '\n', '\r']) :
      c ∉ id.toList := fun member => plain.1 c member special
  have untrimmed : id.toList.reverse.dropWhile (fun c => decide (c.toNat ≤ 0x20)) =
      id.toList.reverse := by
    rw [List.dropWhile_eq_self_iff]
    intro filled
    have isLast := plain.2 (id.toList.reverse[0]) (by simp [List.getLast?_eq_getElem?])
    simpa using isLast
  have tidy : tidied id.toList = id.toList := by
    rw [tidied, untrimmed, List.reverse_reverse, List.filter_eq_self]
    intro c member
    simp only [Bool.and_eq_true, bne_iff_ne]
    refine ⟨⟨?_, ?_⟩, ?_⟩ <;> rintro rfl <;> exact keeps (by decide) member
  rw [pathOf, tidy, takeWhile_of_absent (keeps (by decide)), takeWhile_of_absent (keeps (by decide))]

theorem segmentsFor_of_plain {id : String} (plain : Plain id) :
    segmentsFor id = resolve ["users"] [encodeChars pathMarks id.toList] := by
  have whole : id.toList.splitOnP isSlash = [id.toList] := by
    refine List.splitOnP_eq_singleton fun c member => ?_
    have notSpecial := plain.1 c member
    simp only [List.mem_cons, not_or] at notSpecial
    simp [isSlash, notSpecial]
  rw [segmentsFor, pathOf_of_plain plain, whole, List.map_singleton]

/-- Dots alone lead away from the users, and what has to be encoded is no value. -/
theorem eq_of_segmentsFor {id value : String} (plain : Plain id)
    (segments : segmentsFor id = ["users", value]) (isValue : Template.IsValue value.toList) :
    value = id := by
  rw [segmentsFor_of_plain plain, resolve] at segments
  have notEmpty : value ≠ "" := by
    rintro rfl
    exact isValue.1 rfl
  split at segments
  · simp at segments
  · split at segments
    · simp [notEmpty.symm] at segments
    · have same : encodeChars pathMarks id.toList = value := by simpa using segments
      have kept := encodeChars_of_values (same ▸ isValue.2)
      rw [← same, ← String.toList_inj, kept]

end Client

end TableServer
