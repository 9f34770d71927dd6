import TableServer.Proofs.Client.Address
import TableServer.Proofs.Http.FormEncoding

/-! The target of a URL. Whatever text a URL was read from, its target is one that a server can read
unless it is too long, and the pairs that were added to it are found there, after the pairs that the
text had itself. -/

namespace TableServer

namespace PathQuery

theorem not_endsPath {c : Char} (isPath : isPathChar c = true) : (!endsPath c) = true := by
  rw [Bool.not_eq_true', endsPath, Bool.or_eq_false_iff, beq_eq_false_iff_ne, beq_eq_false_iff_ne]
  constructor <;> rintro rfl <;> exact absurd isPath (by decide)

theorem read?_append {path : List Char} (isPath : ∀ c ∈ path, isPathChar c = true)
    {query : Option String} (isQuery : ∀ text ∈ query, ∀ c ∈ text.toList, isQueryChar c = true) :
    read? (path ++ (queryText query).toList) = some ⟨String.ofList path, query⟩ := by
  have goesOn : ∀ c ∈ path, (!endsPath c) = true := fun c member => not_endsPath (isPath c member)
  have ends : (queryText query).toList.takeWhile (!endsPath ·) = [] ∧
      (queryText query).toList.dropWhile (!endsPath ·) = (queryText query).toList := by
    cases query with
    | none => exact ⟨rfl, rfl⟩
    | some text =>
      have begins : (queryText (some text)).toList = '?' :: text.toList := by
        rw [queryText, String.toList_append]
        rfl
      rw [begins]
      exact ⟨List.takeWhile_cons_of_neg (by decide), List.dropWhile_cons_of_neg (by decide)⟩
  have readsQuery : readQuery? (queryText query).toList = some query := by
    cases query with
    | none => rfl
    | some text =>
      have noNumber : '#' ∉ text.toList := fun member =>
        absurd (isQuery text rfl '#' member) (by decide)
      have all : text.toList.all isQueryChar = true := List.all_eq_true.mpr (isQuery text rfl)
      rw [queryText, String.toList_append]
      simp [readQuery?, takeWhile_of_absent noNumber, all]
  rw [read?, List.takeWhile_append_of_pos goesOn, List.dropWhile_append_of_pos goesOn, ends.1, ends.2,
    List.append_nil, readsQuery, if_pos (List.all_eq_true.mpr isPath)]
  rfl

end PathQuery

namespace Url

open PathQuery (isPathChar isQueryChar)

/-- Nothing in the path or the query is refused by a server. -/
structure IsClean (url : Url) : Prop where
  segments : ∀ segment ∈ url.segments, ∀ c ∈ segment.toList, isPathChar c = true
  query : ∀ text ∈ url.query, ∀ c ∈ text.toList, isQueryChar c = true

theorem allowed_of_encodeChars {marks : List Char} {allowed : Char → Bool}
    (kept : ∀ code < 0x7F, 0x20 < code → Char.ofNat code ∉ marks →
      allowed (Char.ofNat code) = true)
    (percent : allowed '%' = true)
    (digits : ∀ value < 16, allowed (Query.upperHexDigit value) = true) {text : List Char} :
    ∀ c ∈ (encodeChars marks text).toList, allowed c = true := by
  intro c member
  rcases mem_encodeChars member with ⟨_, free, unmarked⟩ | rfl | ⟨value, bound, rfl⟩
  · simp only [isAlwaysEncoded, Bool.or_eq_false_iff, decide_eq_false_iff_not, not_le] at free
    rw [← Char.ofNat_toNat c] at unmarked ⊢
    exact kept c.toNat free.2 free.1 unmarked
  · exact percent
  · exact digits value bound

theorem isPathChar_of_encodeChars {text : List Char} :
    ∀ c ∈ (encodeChars pathMarks text).toList, isPathChar c = true :=
  allowed_of_encodeChars (by decide) (by decide) (by decide)

theorem isQueryChar_of_encodeChars {text : List Char} :
    ∀ c ∈ (encodeChars queryMarks text).toList, isQueryChar c = true :=
  allowed_of_encodeChars (by decide) (by decide) (by decide)

theorem isQueryChar_of_encodePart {text : String} :
    ∀ c ∈ Query.encodePart text, isQueryChar c = true := by
  have plain : ∀ code < 0x80, Query.isPlainByte (UInt8.ofNat code) = true →
      isQueryChar (Char.ofNat code) = true := by decide
  have digits : ∀ value < 16, isQueryChar (Query.upperHexDigit value) = true := by decide
  intro c member
  obtain ⟨byte, _, member⟩ := List.mem_flatMap.mp member
  rw [Query.encodeByte] at member
  split at member
  · rename_i isPlain
    rw [List.mem_singleton.mp member]
    refine plain byte.toNat (Query.isPlainByte_spec isPlain).1 ?_
    rwa [UInt8.ofNat_toNat]
  split at member
  · rw [List.mem_singleton.mp member]
    decide
  · rcases mem_percentEncoded member with rfl | ⟨value, bound, rfl⟩
    · decide
    · exact digits value bound

theorem isQueryChar_of_encodePair {pair : String × String} :
    ∀ c ∈ Query.encodePair pair, isQueryChar c = true := by
  intro c member
  rw [Query.encodePair, List.mem_append, List.mem_cons] at member
  rcases member with member | rfl | member
  · exact isQueryChar_of_encodePart c member
  · decide
  · exact isQueryChar_of_encodePart c member

theorem isQueryChar_of_encode (pairs : List (String × String)) :
    ∀ c ∈ (Query.encode pairs).toList, isQueryChar c = true := by
  rw [Query.encode, String.toList_ofList]
  fun_induction Query.encodePairs pairs with
  | case1 => simp
  | case2 pair => exact isQueryChar_of_encodePair
  | case3 pair rest _ ih =>
    intro c member
    rw [List.mem_append, List.mem_cons] at member
    rcases member with member | rfl | member
    · exact isQueryChar_of_encodePair c member
    · decide
    · exact ih c member

theorem isClean_of_read? {text : String} {url : Url} (read : read? text = some url) :
    url.IsClean := by
  simp only [read?] at read
  split at read
  · cases read
  · split at read
    · cases read
    · cases read
      constructor
      · intro segment member
        rcases mem_resolve member with member | member | rfl
        · cases member
        · obtain ⟨piece, _, rfl⟩ := List.mem_map.mp member
          exact isPathChar_of_encodeChars
        · simp
      · intro query isQuery
        split at isQuery
        · cases isQuery
          exact isQueryChar_of_encodeChars
        · cases isQuery

def ownPairs (url : Url) : Query :=
  url.query.elim [] Query.ofText

def queryWith (url : Url) (pairs : List (String × String)) : String :=
  match url.query with
  | some before =>
    if before.isEmpty then Query.encode pairs
    else if (Query.encode pairs).isEmpty then before
    else before ++ "&" ++ Query.encode pairs
  | none => Query.encode pairs

theorem query_withPairs (url : Url) (pairs : List (String × String)) :
    (url.withPairs pairs).query =
      if (url.queryWith pairs).isEmpty then none else some (url.queryWith pairs) := rfl

theorem ofText_queryWith (url : Url) (pairs : List (String × String)) :
    Query.ofText (url.queryWith pairs) = url.ownPairs ++ pairs := by
  rw [queryWith, ownPairs]
  cases url.query with
  | none => exact Query.ofText_encode pairs
  | some before =>
    simp only [Option.elim_some]
    split
    · rename_i empty
      rw [String.isEmpty_iff] at empty
      rw [empty, Query.ofText_encode]
      rfl
    split
    · rename_i empty
      have nothing : pairs = [] := by
        rw [← Query.ofText_encode pairs, String.isEmpty_iff.mp empty]
        rfl
      rw [nothing, List.append_nil]
    · rw [Query.ofText_append, Query.ofText_encode]

theorem isQueryChar_of_queryWith {url : Url} (clean : url.IsClean) (pairs : List (String × String)) :
    ∀ c ∈ (url.queryWith pairs).toList, isQueryChar c = true := by
  have added := isQueryChar_of_encode pairs
  rw [queryWith]
  cases own : url.query with
  | none => exact added
  | some before =>
    simp only
    split
    · exact added
    split
    · exact clean.query before own
    · simp only [String.toList_append, List.mem_append]
      rintro c ((member | member) | member)
      · exact clean.query before own c member
      · rw [List.mem_singleton.mp member]
        decide
      · exact added c member

theorem IsClean.withPairs {url : Url} (clean : url.IsClean) (pairs : List (String × String)) :
    (url.withPairs pairs).IsClean where
  segments := clean.segments
  query := by
    intro text isQuery
    rw [query_withPairs] at isQuery
    split at isQuery
    · cases isQuery
    · cases isQuery
      exact isQueryChar_of_queryWith clean pairs

theorem IsClean.path {url : Url} (clean : url.IsClean) :
    ∀ c ∈ '/' :: ("/".intercalate url.segments).toList, isPathChar c = true := by
  intro c member
  rcases List.mem_cons.mp member with rfl | member
  · decide
  · by_contra refused
    have notSlash : c ≠ '/' := by
      rintro rfl
      exact refused (by decide)
    refine not_mem_path notSlash (fun segment isSegment inSegment => ?_) member
    exact refused (clean.segments segment isSegment c inSegment)

def text (url : Url) : String :=
  url.scheme ++ "://" ++ url.host ++ url.target

theorem target_le_text (url : Url) : url.target.utf8ByteSize ≤ url.text.utf8ByteSize := by
  rw [text, String.utf8ByteSize_append]
  exact Nat.le_add_left _ _

theorem IsClean.read?_target {url : Url} (clean : url.IsClean)
    (short : url.target.utf8ByteSize ≤ Uri.longestBytes) :
    Uri.read? url.target =
      some (.origin ⟨String.ofList ('/' :: ("/".intercalate url.segments).toList), url.query⟩) := by
  have read := PathQuery.read?_append clean.path clean.query
  rw [List.cons_append, ← target_toList] at read
  rw [Uri.read?, if_neg (Nat.not_lt.mpr short)]
  rw [target_toList] at read ⊢
  simp only [read, Option.map_some]

theorem IsClean.target_of_read? {url : Url} (clean : url.IsClean) {uri : Uri}
    (read : Uri.read? url.target = some uri) : uri.target = url.target := by
  refine Uri.target_of_read? read url.target_toList ?_
  rw [target_toList, ← List.cons_append, List.mem_append, not_or]
  constructor
  · exact fun member => absurd (clean.path '#' member) (by decide)
  · cases asked : url.query with
    | none => decide
    | some query =>
      have clear : '#' ∉ query.toList := fun member =>
        absurd (clean.query query asked '#' member) (by decide)
      simpa [PathQuery.queryText] using clear

theorem IsClean.hasParts {url : Url} (clean : url.IsClean) (pairs : List (String × String)) :
    HasParts (url.withPairs pairs).target
      (String.ofList ('/' :: ("/".intercalate url.segments).toList)) (url.queryWith pairs) := by
  constructor
  · rw [String.toList_ofList]
    exact fun member => absurd (clean.path '?' member) (by decide)
  · have segments : (url.withPairs pairs).segments = url.segments := rfl
    have target := target_toList (url.withPairs pairs)
    rw [query_withPairs, segments] at target
    split at target
    · rename_i empty
      refine Or.inl ⟨?_, String.isEmpty_iff.mp empty⟩
      rw [← String.toList_inj, target]
      simp [PathQuery.queryText]
    · refine Or.inr ?_
      rw [← String.toList_inj, target]
      simp [PathQuery.queryText]

/-- The pairs that were added arrive after those that the URL had itself. -/
theorem IsClean.ofTarget_withPairs {url : Url} (clean : url.IsClean)
    (pairs : List (String × String)) :
    Query.ofTarget (url.withPairs pairs).target = url.ownPairs ++ pairs := by
  rw [query_of_hasParts (clean.hasParts pairs), ofText_queryWith]

theorem cleaned_subset (text : List Char) : cleaned text ⊆ text := by
  intro c member
  have inTrimmed := (List.mem_filter.mp member).1
  have inRest := (List.dropWhile_sublist _).subset (List.mem_reverse.mp inTrimmed)
  exact (List.dropWhile_sublist _).subset (List.mem_reverse.mp inRest)

theorem subset_of_splitScheme? {text rest : List Char} {scheme : String}
    (split : splitScheme? text = some (scheme, rest)) : rest ⊆ text := by
  have within := (List.dropWhile_sublist (l := text) (· != ':')).subset
  simp only [splitScheme?] at split
  split at split
  · rename_i mark after dropped
    rw [dropped] at within
    split at split
    · cases split
      intro c member
      exact within (List.mem_cons_of_mem _ ((List.dropWhile_sublist _).subset member))
    · cases split
  · cases split

theorem query_of_read? {text : String} {url : Url} (read : read? text = some url)
    (noQuestion : '?' ∉ text.toList) : url.query = none := by
  simp only [read?] at read
  split at read
  · cases read
  · rename_i scheme rest split
    have inText : rest ⊆ text.toList :=
      List.Subset.trans (subset_of_splitScheme? split) (cleaned_subset _)
    have ended : (rest.takeWhile (· != '#')).dropWhile (· != '?') = [] := by
      refine List.dropWhile_eq_nil_iff.mpr (ne_of_absent fun member => noQuestion ?_)
      exact inText ((List.takeWhile_sublist _).subset member)
    rw [ended] at read
    split at read
    · cases read
    · cases read
      rfl

end Url

end TableServer
