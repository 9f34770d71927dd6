import Mathlib.Data.List.Infix
import TableServer.Proofs.Users.Listing
import TableServer.Proofs.Users.Routing
import TableServer.Proofs.Where.Outcome

/-! What a listing answers, in terms of its query. Only the keys that users are filtered by count,
and of each only the last value; a record is listed when one of them occurs in its field. A record
in which nothing can occur makes the listing fail, and of several such fields the one whose key
comes first in the query is named. -/

namespace TableServer

theorem containsText_iff (haystack needle : List Char) :
    containsText haystack needle = true ↔ needle <:+: haystack := by
  induction haystack with
  | nil => simp [containsText]
  | cons c rest ih =>
    rw [containsText, Bool.or_eq_true, List.isPrefixOf_iff_prefix, ih, List.infix_cons_iff]

def Query.last? (query : Query) (key : String) : Option String :=
  query.reverse.lookup key

/-- A text occurs within another and an array holds it as an element; nothing else contains a
text. -/
def Json.ContainsText (text : String) : Json → Prop
  | .string whole => text.toList <:+: whole.toList
  | .array items => .string text ∈ items
  | _ => False

theorem Operand.contains?_string_iff (value : Json) (text : String) :
    (Operand.ofJson value).contains? (.string text) = some true ↔ value.ContainsText text := by
  cases value with
  | string whole =>
    simp [Operand.ofJson, Operand.contains?, Json.ContainsText, Json.text, containsText_iff]
  | array items =>
    simp [Operand.ofJson, Operand.contains?, Json.ContainsText, Json.sameValue_string_iff]
  | null | bool | number | object => simp [Operand.ofJson, Operand.contains?, Json.ContainsText]

/-- The body is declared as JSON and is a text of the document, to the byte the one that is written. -/
structure Response.Carries (response : Response) (status : Nat) (document : Json) : Prop where
  exact : response = ⟨status, some "application/json", none, document.render⟩
  text : document.HasText response.body.toList

theorem Response.carries_json (status : Nat) (document : Json) :
    (Response.json status document).Carries status document := by
  refine ⟨rfl, ?_⟩
  rw [Response.json, Json.render, String.toList_ofList]
  exact document.hasText_write

namespace Users

/-- Users are filtered by the field, and in this record it is missing or can contain nothing. -/
def lacks (record : Record) (field : String) : Bool :=
  fields.contains field &&
    match Entries.get? record field with
    | some (.string _) => false
    | some (.array _) => false
    | _ => true

def lackedField? (query : Query) (record : Record) : Option String :=
  (query.find? fun pair => lacks record pair.1).map Prod.fst

def WantedFor (query : Query) (record : Record) (field : String) : Prop :=
  ∃ text value, query.last? field = some text ∧ Entries.get? record field = some value ∧
    value.ContainsText text

def Wanted (query : Query) (record : Record) : Prop :=
  ∃ field ∈ fields, WantedFor query record field

instance (text : String) (value : Json) : Decidable (value.ContainsText text) :=
  decidable_of_iff _ (Operand.contains?_string_iff value text)

instance (query : Query) (record : Record) (field : String) :
    Decidable (WantedFor query record field) :=
  match last : query.last? field with
  | none => isFalse (by simp [WantedFor, last])
  | some text =>
    match found : Entries.get? record field with
    | none => isFalse (by simp [WantedFor, found])
    | some value => decidable_of_iff (value.ContainsText text) (by simp [WantedFor, last, found])

instance (query : Query) : DecidablePred (Wanted query) := fun record =>
  inferInstanceAs (Decidable (∃ field ∈ fields, WantedFor query record field))

def named (query : Query) : Query :=
  query.filter fun pair => fields.contains pair.1

def clauses (query : Query) : Entries Condition :=
  Entries.ofList ((named query).map fun pair => (pair.1, clauseOf pair.2))

theorem clauses_eq_nil_iff (query : Query) : clauses query = [] ↔ named query = [] := by
  have first := Entries.head?_keys_ofList ((named query).map fun pair => (pair.1, clauseOf pair.2))
  constructor
  · intro empty
    rw [clauses] at empty
    rw [empty] at first
    cases pairs : named query with
    | nil => rfl
    | cons pair rest =>
      rw [pairs] at first
      cases first
  · intro empty
    rw [clauses, empty]
    rfl

theorem filterOfQuery_eq (query : Query) :
    filterOfQuery query = if named query = [] then none else some ⟨clauses query⟩ := by
  have built (pairs : Query) (start : Where) :
      pairs.foldl (fun spec pair => spec.insert pair.1 (clauseOf pair.2)) start =
        ⟨(pairs.map fun pair => (pair.1, clauseOf pair.2)).foldl
          (fun entries pair => entries.put pair.1 pair.2) start.clauses⟩ := by
    induction pairs generalizing start with
    | nil => rfl
    | cons pair rest ih => exact ih _
  have spec : (named query).foldl (fun spec pair => spec.insert pair.1 (clauseOf pair.2))
      Where.empty = ⟨clauses query⟩ := built (named query) Where.empty
  have unfolded : filterOfQuery query = if Where.isEmpty ⟨clauses query⟩ then none
      else some ⟨clauses query⟩ := by
    rw [← spec]
    rfl
  rw [unfolded]
  simp only [Where.isEmpty, List.isEmpty_iff, clauses_eq_nil_iff]

theorem get?_named (pairs : Query) (field : String) :
    Entries.get? ((named pairs).map fun pair => (pair.1, clauseOf pair.2)) field =
      if field ∈ fields then (Entries.get? pairs field).map clauseOf else none := by
  induction pairs with
  | nil => simp [named, Entries.get?]
  | cons pair rest ih =>
    rw [named] at ih
    rw [named, List.filter_cons, Entries.get?_cons]
    by_cases known : pair.1 ∈ fields
    · have kept : fields.contains pair.1 = true := by simpa using known
      rw [if_pos kept, List.map_cons, Entries.get?_cons, ih]
      by_cases same : field = pair.1
      · simp [same, known]
      · simp [same]
    · have dropped : ¬fields.contains pair.1 = true := by simpa using known
      rw [if_neg dropped, ih]
      by_cases same : field = pair.1
      · simp [same, known]
      · simp [same]

theorem mem_clauses_iff (query : Query) (field : String) (condition : Condition) :
    (field, condition) ∈ clauses query ↔
      field ∈ fields ∧ ∃ text, query.last? field = some text ∧ condition = clauseOf text := by
  have turned : (named query).reverse = named query.reverse := by
    rw [named, named, List.filter_reverse]
  rw [clauses, Entries.mem_iff_get? (Entries.distinct_ofList _), Entries.get?_ofList,
    ← List.map_reverse, turned, get?_named]
  by_cases known : field ∈ fields
  · rw [if_pos known, Option.map_eq_some_iff]
    simp only [known, true_and, Query.last?, Entries.get?, eq_comm]
  · simp [known]

theorem named_eq_nil_iff (query : Query) :
    named query = [] ↔ ∀ field ∈ fields, query.last? field = none := by
  simp only [named, List.filter_eq_nil_iff, Query.last?, List.lookup_eq_none_iff,
    List.mem_reverse, List.contains_iff_mem, bne_iff_ne]
  constructor
  · rintro unknown field known pair isPair rfl
    exact unknown pair isPair known
  · intro absent pair isPair known
    exact absent pair.1 known pair isPair rfl

theorem lackedField?_eq (query : Query) (record : Record) :
    lackedField? query record = (clauses query).keys.find? (lacks record) := by
  have listed (pair : String × String) : lacks record pair.1 =
      decide (fields.contains pair.1 = true ∧ lacks record pair.1 = true) := by
    cases known : fields.contains pair.1 with
    | true => simp
    | false => simp only [lacks, known, Bool.false_and]; rfl
  rw [clauses, Entries.find?_keys_ofList, Entries.keys, List.map_map, named, List.find?_map,
    List.find?_filter, lackedField?]
  rw [show (fun pair : String × String => lacks record pair.1) = _ from funext listed]
  rfl

theorem unanswerable_iff (record : Record) {field : String} (known : field ∈ fields)
    (text : String) :
    Where.Unanswerable record (field, clauseOf text) ↔ lacks record field = true := by
  have member : fields.contains field = true := by simpa using known
  simp only [Where.Unanswerable, clauseOf, lacks, member, Bool.true_and]
  cases found : Entries.get? record field with
  | none => simp
  | some value => cases value <;> simp [Json.Iterable]

theorem firstUnanswerable_clauses_iff (query : Query) (record : Record) (field : String) :
    Where.FirstUnanswerable record (clauses query) field ↔
      lackedField? query record = some field := by
  have each : ∀ clause ∈ clauses query,
      (Where.Unanswerable record clause ↔ lacks record clause.1 = true) := by
    intro clause isClause
    obtain ⟨known, text, _, same⟩ := (mem_clauses_iff query clause.1 clause.2).mp isClause
    have shape : clause = (clause.1, clauseOf text) := by rw [← same]
    rw [shape]
    exact unanswerable_iff record known text
  have answers {earlier later : Entries Condition} (shape : clauses query = earlier ++ later) :
      Where.Answerable record earlier ↔ ∀ clause ∈ earlier, (!lacks record clause.1) = true := by
    refine forall₂_congr fun clause isEarlier => ?_
    rw [each clause (shape ▸ List.mem_append_left _ isEarlier)]
    simp
  rw [lackedField?_eq, Entries.keys, List.find?_map, Option.map_eq_some_iff]
  simp only [List.find?_eq_some_iff_append]
  constructor
  · rintro ⟨earlier, clause, later, shape, answered, stuck, rfl⟩
    have isClause : clause ∈ clauses query := by simp [shape]
    exact ⟨clause, ⟨(each clause isClause).mp stuck, earlier, later, shape,
      (answers shape).mp answered⟩, rfl⟩
  · rintro ⟨clause, ⟨stuck, earlier, later, shape, answered⟩, rfl⟩
    have isClause : clause ∈ clauses query := by simp [shape]
    exact ⟨earlier, clause, later, shape, (answers shape).mpr answered,
      (each clause isClause).mpr stuck, rfl⟩

theorem holds_clauseOf_iff (record : Record) (field text : String) :
    Where.Holds record (field, clauseOf text) ↔
      ∃ value, Entries.get? record field = some value ∧ value.ContainsText text := by
  rw [Where.Holds, Condition.holds, clauseOf, Condition.compare?]
  cases found : Entries.get? record field with
  | none => simp [Operand.ofField, Operand.contains?]
  | some value =>
    have contains := Operand.contains?_string_iff value text
    cases inner : (Operand.ofJson value).contains? (.string text) with
    | none => rw [inner] at contains; simp [Operand.ofField, inner, ← contains]
    | some result => rw [inner] at contains; simp [Operand.ofField, inner, ← contains]

theorem selects_clauses_iff (query : Query) (record : Record) :
    Where.Selects record (clauses query) ↔ Wanted query record := by
  constructor
  · rintro ⟨earlier, ⟨field, condition⟩, later, shape, _, holds, _⟩
    have isClause : (field, condition) ∈ clauses query := by simp [shape]
    obtain ⟨known, text, last, rfl⟩ := (mem_clauses_iff query field condition).mp isClause
    obtain ⟨value, found, contains⟩ := (holds_clauseOf_iff record field text).mp holds
    exact ⟨field, known, text, value, last, found, contains⟩
  · rintro ⟨field, known, text, value, last, found, contains⟩
    have isClause := (mem_clauses_iff query field (clauseOf text)).mpr ⟨known, text, last, rfl⟩
    obtain ⟨earlier, later, shape⟩ := List.append_of_mem isClause
    refine ⟨earlier, _, later, shape, Or.inr rfl,
      (holds_clauseOf_iff record field text).mpr ⟨value, found, contains⟩, ?_⟩
    intro clause isLater joined
    have isClause : (clause.1, clause.2) ∈ clauses query := by simp [shape, isLater]
    obtain ⟨_, other, _, same⟩ := (mem_clauses_iff query clause.1 clause.2).mp isClause
    rw [same] at joined
    cases joined

theorem selectRows_of_matches {spec : Where} {failing : Record → Option String}
    {chosen : Record → Bool}
    (outcome : ∀ record, (∀ field, failing record = some field →
        spec.matches? record = .error ⟨field⟩) ∧
      (failing record = none → spec.matches? record = .ok (chosen record)))
    (rows : List Record) :
    selectRows (some spec) rows =
      match rows.findSome? failing with
      | some field => .error ⟨field⟩
      | none => .ok (rows.filter chosen) := by
  induction rows with
  | nil => rfl
  | cons row rest ih =>
    obtain ⟨fails, passes⟩ := outcome row
    rw [selectRows_cons, List.findSome?_cons]
    cases failed : failing row with
    | some field => rw [fails field failed]
    | none =>
      rw [passes failed, ih]
      simp only
      cases rest.findSome? failing with
      | some field => rfl
      | none => simp only [List.filter_cons]

theorem matches?_clauses (query : Query) (record : Record) :
    (∀ field, lackedField? query record = some field →
      Where.matches? ⟨clauses query⟩ record = .error ⟨field⟩) ∧
    (lackedField? query record = none →
      Where.matches? ⟨clauses query⟩ record = .ok (decide (Wanted query record))) := by
  constructor
  · intro field lacked
    exact (Where.matches?_eq_error_iff _ record ⟨field⟩).mpr
      ((firstUnanswerable_clauses_iff query record field).mpr lacked)
  · intro answered
    have answerable : Where.Answerable record (clauses query) := by
      by_contra stuck
      obtain ⟨field, first⟩ := (Where.exists_firstUnanswerable_iff record _).mpr stuck
      rw [firstUnanswerable_clauses_iff, answered] at first
      cases first
    obtain ⟨selected, found⟩ :=
      (Where.answerable_iff_exists_ok ⟨clauses query⟩ record).mp answerable
    have selects := Where.matches?_eq_true_iff ⟨clauses query⟩ record
    rw [selects_clauses_iff, found, and_iff_right answerable, Except.ok.injEq] at selects
    rw [found, Except.ok.injEq, Bool.eq_iff_iff, decide_eq_true_iff]
    exact selects

theorem listing_eq (query : Query) (rows : List Record) (filtered : named query ≠ []) :
    listing query rows =
      match rows.findSome? (lackedField? query) with
      | some field => failed (.notIterable ⟨field⟩)
      | none =>
        .json 200 (.array ((rows.filter fun row => decide (Wanted query row)).map .object)) := by
  rw [listing, filterOfQuery_eq, if_neg filtered, selectRows_of_matches (matches?_clauses query)]
  cases rows.findSome? (lackedField? query) <;> rfl

theorem listing_of_unnamed {query : Query} (unfiltered : named query = []) (rows : List Record) :
    listing query rows = .json 200 (.array (rows.map .object)) := by
  rw [listing, filterOfQuery_eq, if_pos unfiltered]
  cases rows <;> rfl

theorem last?_ne_none_iff (query : Query) (field : String) :
    query.last? field ≠ none ↔ ∃ pair ∈ query, field = pair.1 := by
  simp only [Query.last?, ne_eq, List.lookup_eq_none_iff, List.mem_reverse, bne_iff_ne, not_forall,
    not_not, exists_prop]

theorem lackedField?_eq_none_iff (query : Query) (record : Record) :
    lackedField? query record = none ↔
      ∀ field, query.last? field ≠ none → lacks record field = false := by
  simp only [lackedField?, Option.map_eq_none_iff, List.find?_eq_none, last?_ne_none_iff]
  constructor
  · rintro none_lacked field ⟨pair, isPair, rfl⟩
    exact Bool.eq_false_iff.mpr (none_lacked pair isPair)
  · intro answered pair isPair
    exact Bool.eq_false_iff.mp (answered pair.1 ⟨pair, isPair, rfl⟩)

theorem lackedField?_of_unnamed {query : Query} (unfiltered : named query = []) (record : Record) :
    lackedField? query record = none := by
  rw [lackedField?_eq_none_iff]
  intro field present
  have unknown : field ∉ fields := fun known =>
    present ((named_eq_nil_iff query).mp unfiltered field known)
  simp [lacks, unknown]

theorem listing_of_named {query other : Query} (same : named other = named query)
    (rows : List Record) : listing other rows = listing query rows := by
  rw [listing, listing, filterOfQuery_eq, filterOfQuery_eq, clauses, clauses, same]

theorem lackedField?_eq_none_of_values {query other : Query}
    (same : ∀ field ∈ fields, other.last? field = query.last? field) {record : Record}
    (answered : lackedField? query record = none) : lackedField? other record = none := by
  rw [lackedField?_eq_none_iff] at answered ⊢
  intro field present
  by_cases known : field ∈ fields
  · exact answered field (same field known ▸ present)
  · simp [lacks, known]

theorem wanted_of_values {query other : Query}
    (same : ∀ field ∈ fields, other.last? field = query.last? field) (record : Record) :
    Wanted other record ↔ Wanted query record := by
  constructor
  · rintro ⟨field, known, text, value, last, rest⟩
    exact ⟨field, known, text, value, same field known ▸ last, rest⟩
  · rintro ⟨field, known, text, value, last, rest⟩
    exact ⟨field, known, text, value, (same field known).trans last, rest⟩

/-- The order of the pairs decides which error is answered, never which records are listed. -/
theorem listing_of_values {query other : Query}
    (same : ∀ field ∈ fields, other.last? field = query.last? field) {rows : List Record}
    (succeeds : (listing query rows).status = 200) : listing other rows = listing query rows := by
  by_cases unfiltered : named query = []
  · have unfilteredToo : named other = [] := by
      rw [named_eq_nil_iff] at unfiltered ⊢
      intro field known
      rw [same field known, unfiltered field known]
    rw [listing_of_unnamed unfiltered, listing_of_unnamed unfilteredToo]
  · have filteredToo : named other ≠ [] := by
      intro unfilteredToo
      rw [named_eq_nil_iff] at unfiltered unfilteredToo
      refine unfiltered fun field known => ?_
      rw [← same field known, unfilteredToo field known]
    have answered : rows.findSome? (lackedField? query) = none := by
      cases failing : rows.findSome? (lackedField? query) with
      | none => rfl
      | some field =>
        rw [listing_eq query rows unfiltered, failing] at succeeds
        cases succeeds
    have answeredToo : rows.findSome? (lackedField? other) = none := by
      rw [List.findSome?_eq_none_iff] at answered ⊢
      intro row isRow
      exact lackedField?_eq_none_of_values same (answered row isRow)
    rw [listing_eq query rows unfiltered, listing_eq other rows filteredToo, answered, answeredToo]
    simp only [wanted_of_values same]

theorem mem_fields_of_lackedField? {query : Query} {record : Record} {field : String}
    (lacked : lackedField? query record = some field) : field ∈ fields := by
  obtain ⟨pair, found, rfl⟩ := Option.map_eq_some_iff.mp lacked
  have lacking := List.find?_some found
  simp only [lacks, Bool.and_eq_true] at lacking
  exact List.contains_iff_mem.mp lacking.1

theorem failed_notIterable {field : String} (known : field ∈ fields) :
    failed (.notIterable ⟨field⟩) =
      ⟨500, some "application/json", none, "\x7b\"error\":\"Field '" ++ field ++
        "' is not iterable, membership test is undefined\"\x7d"⟩ := by
  simp only [fields, List.mem_cons, List.not_mem_nil, or_false] at known
  rcases known with rfl | rfl
  · decide +kernel
  · decide +kernel

structure AsksFor (limit : Nat) (message : Message) (query : String) : Prop where
  isGet : message.method = .get
  addressed : ∃ address, Uri.read? address = some message.uri
  target : AtCollection message.uri.target query
  fits : message.body.size ≤ min router.bodyLimit limit

theorem declaredJson_listing (query : Query) (rows : List Record) :
    (listing query rows).declaredJson = listing query rows := by
  rw [listing]
  cases selectRows (filterOfQuery query) rows <;> rfl

theorem answer_of_asksFor {limit : Nat} {message : Message} {query : String}
    (asks : AsksFor limit message query) (base : UserBase) :
    (router.executeWithin limit message base).1 =
      listing (Query.ofText query) (base.store.tables.rows table) := by
  obtain ⟨isGet, ⟨address, read⟩, target, fits⟩ := asks
  have accepted := accepts_collection target (Uri.lineFeed_not_mem_target read)
  have chosen : router.find? message.method message.uri.target =
      some ⟨collection, listUsers⟩ := by
    rw [isGet, find?_get, if_pos accepted]
  rw [Router.executeWithin, readLimitedBody, if_neg (Nat.not_lt.mpr fits)]
  simp only [Router.dispatch, Request.ofMessage, Request.target, chosen, listUsers_response,
    query_of_atCollection target, declaredJson_listing]

/-- What a listing answers. Without a value for name or email it is all records; where a record
lacks a field that the query has a value for it is an error that names the field; otherwise it is
the records with a field that contains its value. Other keys and earlier values do not count. -/
theorem listUsers_outcome {limit : Nat} {message : Message} {query : String}
    (asks : AsksFor limit message query) (base : UserBase) :
    let values := (Query.ofText query).last?
    let rows := base.store.tables.rows table
    let answer := (router.executeWithin limit message base).1
    (values "name" = none → values "email" = none →
      answer.Carries 200 (.array (rows.map .object))) ∧
    (∀ field, rows.findSome? (lackedField? (Query.ofText query)) = some field →
      answer = ⟨500, some "application/json", none, "\x7b\"error\":\"Field '" ++ field ++
        "' is not iterable, membership test is undefined\"\x7d"⟩) ∧
    ((values "name" ≠ none ∨ values "email" ≠ none) →
      rows.findSome? (lackedField? (Query.ofText query)) = none →
        answer.Carries 200 (.array
          ((rows.filter fun row => decide (Wanted (Query.ofText query) row)).map .object))) ∧
    (∀ otherLimit other otherQuery, AsksFor otherLimit other otherQuery →
      named (Query.ofText otherQuery) = named (Query.ofText query) →
        (router.executeWithin otherLimit other base).1 = answer) ∧
    ∀ otherLimit other otherQuery, AsksFor otherLimit other otherQuery →
      (Query.ofText otherQuery).last? "name" = values "name" →
      (Query.ofText otherQuery).last? "email" = values "email" → answer.status = 200 →
        (router.executeWithin otherLimit other base).1 = answer := by
  intro values rows answer
  have listed : answer = listing (Query.ofText query) rows := answer_of_asksFor asks base
  have unnamed_iff : named (Query.ofText query) = [] ↔
      values "name" = none ∧ values "email" = none := by
    rw [named_eq_nil_iff]
    simp [fields, values]
  refine ⟨?_, ?_, ?_, ?_, ?_⟩
  · intro noName noEmail
    rw [listed, listing_of_unnamed (unnamed_iff.mpr ⟨noName, noEmail⟩)]
    exact Response.carries_json 200 _
  · intro field failing
    obtain ⟨row, _, lacked⟩ := List.exists_of_findSome?_eq_some failing
    have filtered : named (Query.ofText query) ≠ [] := by
      intro unfiltered
      rw [lackedField?_of_unnamed unfiltered row] at lacked
      cases lacked
    rw [listed, listing_eq _ _ filtered, failing]
    exact failed_notIterable (mem_fields_of_lackedField? lacked)
  · intro present answered
    have filtered : named (Query.ofText query) ≠ [] := by
      intro unfiltered
      obtain ⟨noName, noEmail⟩ := unnamed_iff.mp unfiltered
      exact present.elim (absurd noName) (absurd noEmail)
    rw [listed, listing_eq _ _ filtered, answered]
    exact Response.carries_json 200 _
  · intro otherLimit other otherQuery asksToo same
    rw [listed, answer_of_asksFor asksToo base, listing_of_named same]
  · intro otherLimit other otherQuery asksToo sameName sameEmail succeeds
    have same : ∀ field ∈ fields,
        (Query.ofText otherQuery).last? field = (Query.ofText query).last? field := by
      simp only [fields, List.forall_mem_cons]
      exact ⟨sameName, sameEmail, by simp⟩
    rw [listed] at succeeds ⊢
    rw [answer_of_asksFor asksToo base, listing_of_values same succeeds]

def directory : UserBase :=
  ⟨⟨"data.json", .awaited, [("users",
    [[("id", .string "1"), ("name", .string "ana")],
      [("id", .string "2"), ("name", .array [.string "an"])],
      [("id", .string "3"), ("name", .string "bo")]])], .absent⟩, fun _ => "4", 0⟩

def asking (query : String) : Message :=
  ⟨.get, .origin ⟨"/users", some query⟩, [], ByteArray.empty⟩

theorem listUsers_outcome_of_directory :
    (router.executeWithin 0 (asking "name=o&page=2&name=an") directory).1 =
      ⟨200, some "application/json", none, "[\x7b\"id\":\"1\",\"name\":\"ana\"\x7d," ++
        "\x7b\"id\":\"2\",\"name\":[\"an\"]\x7d]"⟩ ∧
    (router.executeWithin 0 (asking "email=o&name=an") directory).1 =
      ⟨500, some "application/json", none, "\x7b\"error\":\"Field 'email' is not iterable, " ++
        "membership test is undefined\"\x7d"⟩ := by
  have named : AsksFor 0 (asking "name=o&page=2&name=an") "name=o&page=2&name=an" :=
    ⟨rfl, ⟨"/users?name=o&page=2&name=an", by decide⟩, Or.inr rfl, Nat.zero_le _⟩
  have both : AsksFor 0 (asking "email=o&name=an") "email=o&name=an" :=
    ⟨rfl, ⟨"/users?email=o&name=an", by decide⟩, Or.inr rfl, Nat.zero_le _⟩
  constructor
  · have listed := ((listUsers_outcome named directory).2.2.1 (Or.inl (by decide)) (by decide)).exact
    have first : Wanted (Query.ofText "name=o&page=2&name=an")
        [("id", .string "1"), ("name", .string "ana")] := by decide +kernel
    have second : Wanted (Query.ofText "name=o&page=2&name=an")
        [("id", .string "2"), ("name", .array [.string "an"])] := by decide +kernel
    have third : ¬Wanted (Query.ofText "name=o&page=2&name=an")
        [("id", .string "3"), ("name", .string "bo")] := by decide +kernel
    have chosen : ((directory.store.tables.rows table).filter fun row =>
          decide (Wanted (Query.ofText "name=o&page=2&name=an") row)) =
        [[("id", .string "1"), ("name", .string "ana")],
          [("id", .string "2"), ("name", .array [.string "an"])]] := by
      rw [directory, Tables.rows]
      simp [Entries.get?, table, first, second, third]
    rw [listed, chosen]
    decide +kernel
  · exact (listUsers_outcome both directory).2.1 "email" (by decide)

end Users

end TableServer
