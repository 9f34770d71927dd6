import TableServer.Proofs.Json.Recognition
import TableServer.Proofs.Json.Objects

/-! What a document stands for as it is written. Each key of an object counts once, and an object
that embeds a text stands for what the document of that text stands for. The text is shorter than
the one around it, which is what reading and the proofs about it go down by. -/

namespace TableServer

namespace JsonToken

theorem CharSpelling.length_pos {c : Char} {spelling : List Char} (form : CharSpelling c spelling) :
    0 < spelling.length := by
  cases form <;> exact Nat.succ_pos _

theorem TextSpelling.length_le {text spelling : List Char} (form : TextSpelling text spelling) :
    text.length ≤ spelling.length := by
  induction form with
  | nil => exact Nat.le_refl _
  | cons first further ih =>
    have filled := first.length_pos
    simp only [List.length_cons, List.length_append]
    omega

theorem Spells.length_lt {tokens : List JsonToken} {text : List Char} (spells : Spells tokens text)
    {body : String} (isToken : .string body ∈ tokens) : body.toList.length < text.length := by
  induction spells with
  | done => cases isToken
  | space blank further ih => exact Nat.lt_succ_of_lt (ih isToken)
  | token first further ih =>
    rw [List.length_append]
    rcases List.mem_cons.mp isToken with rfl | later
    · cases first with
      | string form =>
        have within := form.length_le
        simp only [String.toList_ofList, List.length_cons, List.length_append]
        omega
    · have within := ih later
      omega

end JsonToken

namespace Json

open Entries (KeepsLast entryWith?)

theorem mem_tokensOfItems {item : Json} {items : List Json} {token : JsonToken}
    (isItem : item ∈ items) (isToken : token ∈ item.tokens) : token ∈ tokensOfItems items := by
  induction items with
  | nil => cases isItem
  | cons first rest ih =>
    cases rest with
    | nil =>
      rw [List.mem_singleton.mp isItem] at isToken
      exact List.mem_append_left _ isToken
    | cons second others =>
      rw [tokensOfItems_cons first (by simp), List.mem_append, List.mem_cons]
      rcases List.mem_cons.mp isItem with rfl | later
      · exact Or.inl isToken
      · exact Or.inr (Or.inr (ih later))

theorem mem_tokensOfMembers {member : String × Json} {members : List (String × Json)}
    {token : JsonToken} (isMember : member ∈ members) (isToken : token ∈ member.2.tokens) :
    token ∈ tokensOfMembers members := by
  induction members with
  | nil => cases isMember
  | cons first rest ih =>
    cases rest with
    | nil =>
      rw [List.mem_singleton.mp isMember] at isToken
      simp [tokensOfMembers, isToken]
    | cons second others =>
      rw [tokensOfMembers_cons first.1 first.2 (by simp)]
      rcases List.mem_cons.mp isMember with rfl | later
      · simp [isToken]
      · simp [ih later]

theorem string_mem_tokens {text : String} {document : Json}
    (isPart : .string text ∈ document.parts) : .string text ∈ document.tokens := by
  induction document using Json.induct with
  | null | bool | number => simp [parts] at isPart
  | string other => simpa [parts, tokens] using isPart
  | array items ih =>
    simp only [parts, List.mem_cons, reduceCtorEq, false_or, mem_partsOfItems] at isPart
    obtain ⟨item, isItem, isPart⟩ := isPart
    exact List.mem_cons_of_mem _ (mem_tokensOfItems isItem (ih item isItem isPart))
  | object members ih =>
    simp only [parts, List.mem_cons, reduceCtorEq, false_or, mem_partsOfMembers] at isPart
    obtain ⟨member, isMember, isPart⟩ := isPart
    exact List.mem_cons_of_mem _ (mem_tokensOfMembers isMember (ih member isMember isPart))

theorem string_length_lt {text : List Char} {document : Json}
    (found : readWritten text = some document) {body : String}
    (isPart : .string body ∈ document.parts) : body.toList.length < text.length := by
  obtain ⟨spells, _⟩ := (readWritten_eq_some_iff text document).mp found
  exact spells.length_lt (string_mem_tokens isPart)

theorem mem_parts_of_item {item part : Json} {items : List Json} (isItem : item ∈ items)
    (isPart : part ∈ item.parts) : part ∈ (array items).parts :=
  List.mem_cons_of_mem _ ((mem_partsOfItems part items).mpr ⟨item, isItem, isPart⟩)

theorem mem_parts_of_member {member : String × Json} {part : Json} {members : List (String × Json)}
    (isMember : member ∈ members) (isPart : part ∈ member.2.parts) :
    part ∈ (object members).parts :=
  List.mem_cons_of_mem _ ((mem_partsOfMembers part members).mpr ⟨member, isMember, isPart⟩)

theorem mem_parts_of_embedded {members : List (String × Json)} {text : String}
    (embeds : embeddedText? members = some text) : .string text ∈ (object members).parts := by
  unfold embeddedText? at embeds
  split at embeds
  · cases embeds
    simp [parts, partsOfMembers]
  · cases embeds

theorem unfolded?_congr {first second : List Char → Option Json} {document : Json}
    (agree : ∀ text, .string text ∈ document.parts → first text.toList = second text.toList) :
    document.unfolded? first = document.unfolded? second := by
  induction document using Json.induct with
  | null | bool | number | string => rfl
  | array items ih =>
    rw [unfolded?, unfolded?, unfoldedItems?_eq_mapM, unfoldedItems?_eq_mapM]
    refine congrArg _ (mapM_congr fun item isItem => ih item isItem fun text isPart => ?_)
    exact agree text (mem_parts_of_item isItem isPart)
  | object members ih =>
    rw [unfolded?, unfolded?]
    split
    · cases embeds : embeddedText? members with
      | none => rfl
      | some text => exact agree text (mem_parts_of_embedded embeds)
    · rw [unfoldedMembers?_eq_mapM, unfoldedMembers?_eq_mapM]
      refine congrArg _ (mapM_congr fun member isMember => ?_)
      rw [entryWith?, entryWith?, ih member isMember]
      intro text isPart
      exact agree text (mem_parts_of_member isMember isPart)

theorem readLevels_eq_readUnfolded (levels : Nat) (text : List Char)
    (enough : text.length < levels) : readLevels levels text = readUnfolded text := by
  induction size : text.length using Nat.strongRecOn generalizing levels text with
  | ind size ih =>
    subst size
    cases levels with
    | zero => cases enough
    | succ levels =>
      rw [readUnfolded, readLevels, readLevels]
      cases found : readWritten text with
      | none => rfl
      | some written =>
        apply unfolded?_congr
        intro inner isPart
        have shorter := string_length_lt found isPart
        rw [ih _ shorter levels inner.toList (by omega) rfl,
          ih _ shorter text.length inner.toList shorter rfl]

theorem readUnfolded_eq (text : List Char) :
    readUnfolded text = (readWritten text).bind (unfolded? readUnfolded) := by
  rw [readUnfolded, readLevels]
  cases found : readWritten text with
  | none => rfl
  | some written =>
    apply unfolded?_congr
    intro inner isPart
    exact readLevels_eq_readUnfolded text.length inner.toList (string_length_lt found isPart)

theorem read_eq (text : List Char) : read text = (readUnfolded text).map merged := by
  rw [readUnfolded_eq, read]
  cases readWritten text <;> rfl

theorem resolved?_array (items : List Json) :
    (array items).resolved? = (items.mapM resolved?).map array := by
  have each : items.mapM resolved? = (items.mapM (unfolded? readUnfolded)).map (List.map merged) :=
    mapM_option_map (unfolded? readUnfolded) merged items
  rw [resolved?, unfolded?, unfoldedItems?_eq_mapM, each, Option.map_map, Option.map_map]
  congr 1
  funext unfolded
  simp only [Function.comp, merged, mergedItems_eq_map]

theorem resolvedMembers?_eq_mapM (members : List (String × Json)) :
    resolvedMembers? members = (members.mapM (entryWith? resolved?)).map Entries.ofList := by
  have each : members.mapM (entryWith? resolved?) =
      (members.mapM (entryWith? (unfolded? readUnfolded))).map mergedMembers := by
    rw [funext mergedMembers_eq_map]
    rw [← mapM_option_map]
    refine congrArg (List.mapM · members) (funext fun member => ?_)
    simp only [entryWith?, resolved?, Option.map_map]
    rfl
  rw [resolvedMembers?, unfoldedMembers?_eq_mapM, each, Option.map_map]
  rfl

theorem resolved?_object (members : List (String × Json)) :
    (object members).resolved? =
      if isEmbedding members then (embeddedText? members).bind fun text => read text.toList
      else (resolvedMembers? members).map object := by
  rw [resolved?, unfolded?]
  split
  · simp only [read_eq]
    cases embeddedText? members <;> rfl
  · rw [resolvedMembers?, Option.map_map, Option.map_map]
    rfl

theorem exists_bound (documents : List Json) :
    ∃ bound, ∀ text, .string text ∈ documents → text.toList.length < bound := by
  induction documents with
  | nil => exact ⟨0, by simp⟩
  | cons document rest ih =>
    obtain ⟨bound, within⟩ := ih
    by_cases isText : ∃ text, document = .string text
    · obtain ⟨text, rfl⟩ := isText
      refine ⟨max bound (text.toList.length + 1), ?_⟩
      intro other member
      rcases List.mem_cons.mp member with same | later
      · cases same
        omega
      · have shorter := within other later
        omega
    · refine ⟨bound, ?_⟩
      intro other member
      rcases List.mem_cons.mp member with same | later
      · exact absurd ⟨other, same.symm⟩ isText
      · exact within other later

/-- What holds of a document whenever it holds of the parts of it, and of the documents of the
texts that it embeds, holds of every document. -/
theorem inductWritten {motive : Json → Prop} (null : motive .null)
    (bool : ∀ value, motive (.bool value)) (number : ∀ value, motive (.number value))
    (string : ∀ text, motive (.string text))
    (array : ∀ items, (∀ item ∈ items, motive item) → motive (.array items))
    (object : ∀ members, isEmbedding members = false → (∀ member ∈ members, motive member.2) →
      motive (.object members))
    (embedding : ∀ members, isEmbedding members = true →
      (∀ text written, embeddedText? members = some text → readWritten text.toList = some written →
        motive written) → motive (.object members)) :
    ∀ document, motive document := by
  have bounded : ∀ (bound : Nat) (document : Json),
      (∀ text, .string text ∈ document.parts → text.toList.length < bound) → motive document := by
    intro bound
    induction bound using Nat.strongRecOn with
    | ind bound shorter =>
      intro document
      induction document using Json.induct with
      | null => exact fun _ => null
      | bool value => exact fun _ => bool value
      | number value => exact fun _ => number value
      | string text => exact fun _ => string text
      | array items ih =>
        intro within
        apply array
        intro item isItem
        apply ih item isItem
        exact fun text isPart => within text (mem_parts_of_item isItem isPart)
      | object members ih =>
        intro within
        by_cases embeds : isEmbedding members = true
        · apply embedding members embeds
          intro text written isText found
          apply shorter text.toList.length (within text (mem_parts_of_embedded isText))
          exact fun inner isPart => string_length_lt found isPart
        · apply object members (by simpa using embeds)
          intro member isMember
          apply ih member isMember
          exact fun text isPart => within text (mem_parts_of_member isMember isPart)
  intro document
  obtain ⟨bound, within⟩ := exists_bound document.parts
  exact bounded bound document within

/-- What a document says as it is written. -/
inductive StandsFor : Json → Json → Prop where
  | null : StandsFor .null .null
  | bool (value : Bool) : StandsFor (.bool value) (.bool value)
  | number (value : JsonNumber) : StandsFor (.number value) (.number value)
  | string (text : String) : StandsFor (.string text) (.string text)
  | array {items values : List Json} (each : List.Forall₂ StandsFor items values) :
      StandsFor (.array items) (.array values)
  | object {members pairs : List (String × Json)} {entries : Entries Json}
      (plain : (Entries.keys members).head? ≠ some embeddingMark)
      (names : Entries.keys pairs = Entries.keys members)
      (each : List.Forall₂ StandsFor (members.map Prod.snd) (pairs.map Prod.snd))
      (keeps : KeepsLast pairs entries) : StandsFor (.object members) (.object entries)
  | embedded {text : String} {written value : Json}
      (spells : JsonToken.Spells written.tokens text.toList)
      (shallow : written.depth ≤ JsonReader.maxDepth) (stands : StandsFor written value) :
      StandsFor (.object [(embeddingMark, .string text)]) value

/-- The fields of an object that is no embedding whatever its keys are. -/
def MembersStandFor (members : List (String × Json)) (entries : Entries Json) : Prop :=
  ∃ pairs, List.Forall₂ (fun member pair => StandsFor member.2 pair.2 ∧ member.1 = pair.1)
      members pairs ∧ KeepsLast pairs entries

theorem forall₂_pairs_iff (related : Json → Json → Prop) (members pairs : List (String × Json)) :
    List.Forall₂ (fun member pair => related member.2 pair.2 ∧ member.1 = pair.1) members pairs ↔
      List.Forall₂ related (members.map Prod.snd) (pairs.map Prod.snd) ∧
        Entries.keys pairs = Entries.keys members := by
  induction members generalizing pairs with
  | nil => cases pairs <;> simp [Entries.keys]
  | cons member rest ih =>
    cases pairs with
    | nil => simp
    | cons pair others =>
      have split : Entries.keys (pair :: others) = Entries.keys (member :: rest) ↔
          member.1 = pair.1 ∧ Entries.keys others = Entries.keys rest := by
        simp [Entries.keys, eq_comm]
      simp only [List.map_cons, List.forall₂_cons, ih, split]
      exact and_and_and_comm

theorem standsFor_array_iff (items : List Json) (value : Json) :
    StandsFor (array items) value ↔
      ∃ values, List.Forall₂ StandsFor items values ∧ array values = value := by
  constructor
  · intro stands
    cases stands with
    | array each => exact ⟨_, each, rfl⟩
  · rintro ⟨values, each, rfl⟩
    exact .array each

theorem standsFor_object_iff {members : List (String × Json)} (plain : isEmbedding members = false)
    (value : Json) :
    StandsFor (object members) value ↔
      ∃ entries, MembersStandFor members entries ∧ object entries = value := by
  constructor
  · intro stands
    cases stands with
    | object _ names each keeps =>
      exact ⟨_, ⟨_, (forall₂_pairs_iff _ _ _).mpr ⟨each, names⟩, keeps⟩, rfl⟩
    | embedded => cases plain
  · rintro ⟨entries, ⟨pairs, related, keeps⟩, rfl⟩
    obtain ⟨each, names⟩ := (forall₂_pairs_iff _ _ _).mp related
    refine .object ?_ names each keeps
    rw [Ne, ← isEmbedding_eq_true_iff, plain]
    exact Bool.false_ne_true

theorem standsFor_embedding_iff {members : List (String × Json)}
    (embeds : isEmbedding members = true) (value : Json) :
    StandsFor (object members) value ↔
      ∃ text written, embeddedText? members = some text ∧
        readWritten text.toList = some written ∧ StandsFor written value := by
  constructor
  · intro stands
    cases stands with
    | object plain => exact absurd ((isEmbedding_eq_true_iff members).mp embeds) plain
    | @embedded text written _ spells shallow stands =>
      exact ⟨text, written, rfl, (readWritten_eq_some_iff _ _).mpr ⟨spells, shallow⟩, stands⟩
  · rintro ⟨text, written, isText, found, stands⟩
    obtain ⟨spells, shallow⟩ := (readWritten_eq_some_iff _ _).mp found
    unfold embeddedText? at isText
    split at isText
    · rename_i key _
      cases isText
      have marked : key = embeddingMark := by simpa [isEmbedding] using embeds
      rw [marked]
      exact .embedded spells shallow stands
    · cases isText

theorem resolvedMembers?_eq_some_iff_of {members : List (String × Json)}
    (each : ∀ member ∈ members, ∀ value,
      member.2.resolved? = some value ↔ StandsFor member.2 value) (entries : Entries Json) :
    resolvedMembers? members = some entries ↔ MembersStandFor members entries := by
  rw [resolvedMembers?_eq_mapM, Option.map_eq_some_iff, MembersStandFor]
  apply exists_congr
  intro pairs
  rw [Entries.keepsLast_iff, mapM_eq_some_iff, eq_comm (a := Entries.ofList pairs)]
  refine and_congr_left fun _ => forall₂_congr_of_mem (fun member isMember pair => ?_) pairs
  rw [← each member isMember, entryWith?, Option.map_eq_some_iff]
  constructor
  · rintro ⟨value, found, rfl⟩
    exact ⟨found, rfl⟩
  · rintro ⟨found, same⟩
    exact ⟨pair.2, found, Prod.ext same rfl⟩

theorem resolved?_eq_some_iff (written : Json) :
    ∀ value, written.resolved? = some value ↔ StandsFor written value := by
  induction written using inductWritten with
  | null | bool | number | string =>
    intro value
    constructor
    · rintro ⟨⟩
      constructor
    · rintro ⟨⟩
      rfl
  | array items ih =>
    intro value
    rw [resolved?_array, standsFor_array_iff, Option.map_eq_some_iff]
    simp only [mapM_eq_some_iff, forall₂_congr_of_mem ih]
  | object members plain ih =>
    intro value
    rw [resolved?_object, plain, standsFor_object_iff plain, if_neg Bool.false_ne_true,
      Option.map_eq_some_iff]
    simp only [resolvedMembers?_eq_some_iff_of ih]
  | embedding members embeds ih =>
    intro value
    rw [resolved?_object, if_pos embeds, standsFor_embedding_iff embeds]
    simp only [Option.bind_eq_some_iff, read]
    constructor
    · rintro ⟨text, isText, written, found, resolved⟩
      exact ⟨text, written, isText, found, (ih text written isText found value).mp resolved⟩
    · rintro ⟨text, written, isText, found, stands⟩
      exact ⟨text, isText, written, found, (ih text written isText found value).mpr stands⟩

end Json

end TableServer
