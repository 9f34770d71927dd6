import Mathlib.Data.List.Find
import Mathlib.Data.List.TakeWhile
import TableServer.Proofs.Http.Division
import TableServer.Proofs.Http.Registration

/-! A target is a path, and maybe a query after its first question mark. Where the templates of a
router have no question mark, the path alone decides on the route and on its parameters, and the
query alone on the pairs that a handler gets. -/

namespace TableServer

theorem ne_of_absent {mark : Char} {text : List Char} (absent : mark ∉ text) :
    ∀ c ∈ text, (c != mark) = true := by
  intro c member
  rw [bne_iff_ne]
  rintro rfl
  exact absent member

theorem takeWhile_of_absent {mark : Char} {text : List Char} (absent : mark ∉ text) :
    text.takeWhile (· != mark) = text :=
  List.takeWhile_eq_self_iff.mpr (ne_of_absent absent)

/-- The target is this path, or the path and the query with a question mark between them; it is
the first one. -/
def HasParts (target path query : String) : Prop :=
  '?' ∉ path.toList ∧ (target = path ∧ query = "" ∨ target = path ++ "?" ++ query)

theorem exists_hasParts (target : String) : ∃ path query, HasParts target path query := by
  have whole := List.takeWhile_append_dropWhile (p := (· != '?')) (l := target.toList)
  have stops := List.head?_dropWhile_not (· != '?') target.toList
  have noQuestion : '?' ∉ target.toList.takeWhile (· != '?') := by
    intro member
    have kept := List.all_eq_true.mp (List.all_takeWhile (l := target.toList)) '?' member
    exact absurd kept (by decide)
  cases rest : target.toList.dropWhile (· != '?') with
  | nil =>
    rw [rest, List.append_nil] at whole
    exact ⟨target, "", whole ▸ noQuestion, Or.inl ⟨rfl, rfl⟩⟩
  | cons c query =>
    rw [rest] at whole stops
    obtain rfl : c = '?' := by simpa using stops
    refine ⟨String.ofList (target.toList.takeWhile (· != '?')), String.ofList query, ?_, Or.inr ?_⟩
    · rw [String.toList_ofList]
      exact noQuestion
    · rw [← String.toList_inj]
      simp only [String.toList_append, String.toList_ofList, List.append_assoc]
      exact whole.symm

theorem query_of_hasParts {target path query : String} (parts : HasParts target path query) :
    Query.ofTarget target = Query.ofText query := by
  obtain ⟨noQuestion, ⟨rfl, rfl⟩ | rfl⟩ := parts
  · have ended : target.toList.dropWhile (· != '?') = [] :=
      List.dropWhile_eq_nil_iff.mpr (ne_of_absent noQuestion)
    rw [Query.ofTarget, ended]
    rfl
  · rw [Query.ofTarget]
    simp only [String.toList_append, List.append_assoc]
    rw [List.dropWhile_append_of_pos (ne_of_absent noQuestion)]
    simp

namespace Template

theorem takeWhile_path {path suffix : List Char} (noQuestion : '?' ∉ path)
    (isSuffix : IsSuffix suffix) : (path ++ suffix).takeWhile (· != '?') = path := by
  have stops : suffix.takeWhile (· != '?') = [] := by
    rcases isSuffix with rfl | ⟨query, rfl, _⟩
    · rfl
    · rfl
  rw [List.takeWhile_append_of_pos (ne_of_absent noQuestion), stops, List.append_nil]

/-- No question mark stands in the literals, but maybe among the names. -/
structure Questionless (template : Template) : Prop where
  lead : '?' ∉ template.lead
  literals : ∀ part ∈ template.parts, '?' ∉ part.2

theorem questionless_ofText {text : List Char} (plain : '?' ∉ text) : (ofText text).Questionless := by
  have whole := (spells_ofText text).whole
  rw [spelled] at whole
  constructor
  · intro member
    exact plain (whole ▸ List.mem_append_left _ member)
  · intro part isPart member
    refine plain (whole ▸ List.mem_append_right _ (List.mem_flatMap.mpr ⟨part, isPart, ?_⟩))
    exact List.mem_cons_of_mem _ (List.mem_append_right _ member)

theorem question_not_mem_joined {parts : List (List Char × List Char)}
    (literals : ∀ part ∈ parts, '?' ∉ part.2) {values : List (List Char)}
    (isValue : ∀ value ∈ values, IsValue value) : '?' ∉ joined parts values := by
  induction parts generalizing values with
  | nil => simp [joined]
  | cons part parts ih =>
    cases values with
    | nil => simp [joined]
    | cons value values =>
      obtain ⟨inLiteral, literals⟩ := List.forall_mem_cons.mp literals
      obtain ⟨first, isValue⟩ := List.forall_mem_cons.mp isValue
      have inValue : '?' ∉ value := fun member => absurd (first.2 '?' member) (by decide)
      have later := ih literals isValue
      simp only [joined] at later ⊢
      simp only [List.zipWith_cons_cons, List.flatten_cons, List.mem_append, not_or]
      exact ⟨⟨inValue, inLiteral⟩, later⟩

theorem question_not_mem_filled {template : Template} (questionless : template.Questionless)
    {values : List (List Char)} (isValue : ∀ value ∈ values, IsValue value) :
    '?' ∉ template.filled values := by
  rw [filled, List.mem_append, not_or]
  exact ⟨questionless.lead, question_not_mem_joined questionless.literals isValue⟩

theorem suffix_of_hasParts {target path query : String} (parts : HasParts target path query)
    (oneLine : '\n' ∉ target.toList) :
    ∃ suffix, IsSuffix suffix ∧ target.toList = path.toList ++ suffix := by
  obtain ⟨_, ⟨rfl, rfl⟩ | rfl⟩ := parts
  · exact ⟨[], Or.inl rfl, (List.append_nil _).symm⟩
  · simp only [String.toList_append, List.mem_append, not_or] at oneLine
    exact ⟨'?' :: query.toList, Or.inr ⟨_, rfl, oneLine.2⟩, by simp⟩

theorem divides_path_iff {template : Template} (questionless : template.Questionless)
    {target path query : String} (parts : HasParts target path query)
    (oneLine : '\n' ∉ target.toList) (values : List (List Char)) :
    template.Divides values target.toList ↔ template.Divides values path.toList := by
  obtain ⟨ending, isEnding, whole⟩ := suffix_of_hasParts parts oneLine
  constructor
  · rintro ⟨count, isValue, suffix, isSuffix, shape⟩
    have same := congrArg (List.takeWhile (· != '?')) (whole.symm.trans shape)
    rw [takeWhile_path parts.1 isEnding,
      takeWhile_path (question_not_mem_filled questionless isValue) isSuffix] at same
    exact ⟨count, isValue, [], Or.inl rfl, by rw [same, List.append_nil]⟩
  · rintro ⟨count, isValue, suffix, isSuffix, shape⟩
    rcases isSuffix with rfl | ⟨text, rfl, _⟩
    · rw [List.append_nil] at shape
      exact ⟨count, isValue, ending, isEnding, by rw [whole, shape]⟩
    · refine absurd ?_ parts.1
      simp [shape]

theorem values?_congr {template : Template} {target other : List Char}
    (same : ∀ values, template.Divides values target ↔ template.Divides values other) :
    template.values? target = template.values? other := by
  rcases values?_cases template target with ⟨nothing, noDivision⟩ | ⟨values, found, divides, greatest⟩
  · rcases values?_cases template other with ⟨nothingToo, _⟩ | ⟨others, _, divides, _⟩
    · rw [nothing, nothingToo]
    · exact absurd ((same others).mpr divides) (noDivision others)
  · rcases values?_cases template other with ⟨_, noDivision⟩ | ⟨others, foundToo, dividesToo, greatestToo⟩
    · exact absurd ((same values).mp divides) (noDivision values)
    · rcases greatest others ((same others).mpr dividesToo) with rfl | smaller
      · rw [found, foundToo]
      · rcases greatestToo values ((same values).mp divides) with rfl | smallerToo
        · rw [found, foundToo]
        · exact absurd smallerToo (List.lt_asymm smaller)

theorem values?_path {template : Template} (questionless : template.Questionless)
    {target path query : String} (parts : HasParts target path query)
    (oneLine : '\n' ∉ target.toList) :
    template.values? target.toList = template.values? path.toList :=
  values?_congr (divides_path_iff questionless parts oneLine)

theorem accepts_path {template : Template} (questionless : template.Questionless)
    {target path query : String} (parts : HasParts target path query)
    (oneLine : '\n' ∉ target.toList) : template.accepts target = template.accepts path := by
  rw [accepts, accepts, values?_path questionless parts oneLine]

theorem parameters_path {template : Template} (questionless : template.Questionless)
    {target path query : String} (parts : HasParts target path query)
    (oneLine : '\n' ∉ target.toList) : template.parameters target = template.parameters path := by
  rw [parameters, parameters, values?_path questionless parts oneLine]

end Template

namespace Router

variable {σ : Type}

theorem find?_path {router : Router σ} {registrations : List (Registration σ)}
    (holds : router.Holds registrations)
    (plain : ∀ registration ∈ registrations, '?' ∉ registration.template.toList)
    {target path query : String} (parts : HasParts target path query)
    (oneLine : '\n' ∉ target.toList) (method : Method) :
    router.find? method target = router.find? method path := by
  rw [find?_of_holds holds, find?_of_holds holds]
  refine congrArg (Option.map Registration.route) (List.find?_congr fun registration isOne => ?_)
  have questionless := Template.questionless_ofText (plain registration isOne)
  exact congrArg (registration.isFor method && ·) (Template.accepts_path questionless parts oneLine)

theorem questionless_of_find? {router : Router σ} {registrations : List (Registration σ)}
    (holds : router.Holds registrations)
    (plain : ∀ registration ∈ registrations, '?' ∉ registration.template.toList)
    {method : Method} {target : String} {route : Route σ}
    (found : router.find? method target = some route) : route.template.Questionless := by
  rw [find?_of_holds holds, Option.map_eq_some_iff] at found
  obtain ⟨registration, first, rfl⟩ := found
  exact Template.questionless_ofText (plain registration (List.mem_of_find?_eq_some first))

/-- The answer of a router that gets path and query apart. The request still carries its address. -/
def dispatchParts (router : Router σ) (path query : String) (request : Request) (state : σ) :
    Response × σ :=
  match router.find? request.method path with
  | none => (.notFound, state)
  | some route =>
    route.handler
      { request with
        parameters := route.template.parameters path
        query := Query.ofText query }
      state

theorem dispatch_eq_dispatchParts {router : Router σ} {registrations : List (Registration σ)}
    (holds : router.Holds registrations)
    (plain : ∀ registration ∈ registrations, '?' ∉ registration.template.toList)
    {request : Request} {path query : String} (parts : HasParts request.target path query)
    (oneLine : '\n' ∉ request.target.toList) (state : σ) :
    router.dispatch request state = router.dispatchParts path query request state := by
  rw [dispatch, dispatchParts, ← find?_path holds plain parts oneLine]
  cases found : router.find? request.method request.target with
  | none => rfl
  | some route =>
    have questionless := questionless_of_find? holds plain found
    simp only [Template.parameters_path questionless parts oneLine, query_of_hasParts parts]

/-- Every target is a path and a query. The method and the path decide on the route and on its
parameters, whatever the query is, and the query decides on the pairs, whatever the path is. -/
theorem dispatch_by_parts {limit : Nat} {registrations : List (Registration σ)}
    {router : Router σ}
    (registered : (Router.empty.withBodyLimit limit).registerAll registrations = .ok router)
    (plain : ∀ registration ∈ registrations, '?' ∉ registration.template.toList) :
    (∀ target, ∃ path query, HasParts target path query) ∧
    ∀ target path query, HasParts target path query → '\n' ∉ target.toList →
      (∀ request state, request.target = target →
        router.dispatch request state = router.dispatchParts path query request state) ∧
      (∀ other otherQuery, HasParts other path otherQuery → '\n' ∉ other.toList → ∀ method,
        router.find? method other = router.find? method target ∧
        ∀ route, router.find? method target = some route →
          route.template.parameters other = route.template.parameters target) ∧
      ∀ other otherPath, HasParts other otherPath query →
        Query.ofTarget other = Query.ofTarget target := by
  have holds := holds_registerAll (holds_empty limit) registered
  rw [List.nil_append] at holds
  refine ⟨exists_hasParts, fun target path query parts oneLine => ⟨?_, ?_, ?_⟩⟩
  · rintro request state rfl
    exact dispatch_eq_dispatchParts holds plain parts oneLine state
  · intro other otherQuery otherParts otherLine method
    refine ⟨?_, fun route found => ?_⟩
    · rw [find?_path holds plain otherParts otherLine, find?_path holds plain parts oneLine]
    · have questionless := questionless_of_find? holds plain found
      rw [Template.parameters_path questionless otherParts otherLine,
        Template.parameters_path questionless parts oneLine]
  · intro other otherPath otherParts
    rw [query_of_hasParts otherParts, query_of_hasParts parts]

def keeping (status : Nat) : Handler (List (String × String) × Query) := fun request _ =>
  (.empty status, (request.parameters, request.query))

def items : List (Registration (List (String × String) × Query)) :=
  [⟨"GET", "/items/:id", keeping 200⟩, ⟨"GET", "/items/:id/parts/:name", keeping 202⟩]

def itemRequest : Request :=
  ⟨.get, .origin ⟨"/items/7", some "/items/8/parts/x?a=b"⟩, [], none, [], []⟩

theorem dispatch_by_parts_of_itemRequest :
    ∃ router, (Router.empty.withBodyLimit 16).registerAll items = .ok router ∧
      (∀ registration ∈ items, '?' ∉ registration.template.toList) ∧
      HasParts itemRequest.target "/items/7" "/items/8/parts/x?a=b" ∧
      '\n' ∉ itemRequest.target.toList ∧
      router.dispatch itemRequest ([], []) =
        (.empty 200, ([("id", "7")], [("/items/8/parts/x?a", "b")])) := by
  have registered : (Router.empty.withBodyLimit 16).registerAll items =
      .ok ⟨[(.get, [⟨.ofText "/items/:id".toList, keeping 200⟩,
        ⟨.ofText "/items/:id/parts/:name".toList, keeping 202⟩])], 16⟩ := by
    rfl
  have plain : ∀ registration ∈ items, '?' ∉ registration.template.toList := by
    simp [items]
  have parts : HasParts itemRequest.target "/items/7" "/items/8/parts/x?a=b" :=
    ⟨by decide, Or.inr rfl⟩
  have oneLine : '\n' ∉ itemRequest.target.toList := by decide
  refine ⟨_, registered, plain, parts, oneLine, ?_⟩
  rw [((dispatch_by_parts registered plain).2 _ _ _ parts oneLine).1 itemRequest ([], []) rfl]
  rfl

end Router

end TableServer
