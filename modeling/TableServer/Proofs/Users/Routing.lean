import TableServer.Proofs.Http.Division
import TableServer.Users.Api

/-! Which requests the users API has routes for. Listing and creating are at `/users`, changing and
removing at `/users/` and an id; a query may follow. An address that was read has no line feed, so
the query of a listing may be any. -/

namespace TableServer

theorem PathQuery.lineFeed_not_mem_text {text : List Char} {pathQuery : PathQuery}
    (read : PathQuery.read? text = some pathQuery) : '\n' ∉ pathQuery.text.toList := by
  have absent {valid : Char → Bool} (refuses : valid '\n' = false) {part : List Char}
      (all : part.all valid = true) : '\n' ∉ part := by
    intro within
    have allowed := List.all_eq_true.mp all '\n' within
    rw [refuses] at allowed
    cases allowed
  simp only [PathQuery.read?] at read
  split at read
  · rename_i validPath
    obtain ⟨query, readQuery, rfl⟩ := Option.map_eq_some_iff.mp read
    have notInPath := absent (by decide) validPath
    have notInQuery : '\n' ∉ (queryText query).toList := by
      unfold PathQuery.readQuery? at readQuery
      split at readQuery
      · dsimp only at readQuery
        split at readQuery
        · rename_i validQuery
          cases readQuery
          simp only [queryText, String.toList_append, String.toList_ofList, List.mem_append, not_or]
          exact ⟨by decide, absent (by decide) validQuery⟩
        · cases readQuery
      · cases readQuery
        simp [queryText]
    simp only [PathQuery.text]
    split
    · decide
    · simp only [String.toList_append, String.toList_ofList, List.mem_append, not_or]
      exact ⟨notInPath, notInQuery⟩
  · cases read

theorem Uri.lineFeed_not_mem_target {text : String} {uri : Uri} (read : Uri.read? text = some uri) :
    '\n' ∉ uri.target.toList := by
  rw [Uri.read?] at read
  split at read
  · cases read
  · split at read
    · cases read
    · cases read
      decide
    · obtain ⟨pathQuery, readPath, rfl⟩ := Option.map_eq_some_iff.mp read
      exact PathQuery.lineFeed_not_mem_text readPath
    · rw [Uri.readFull?] at read
      split at read
      · split at read
        · cases read
          simp [Uri.target]
        · cases read
      · split at read
        · cases read
        · split at read
          · obtain ⟨pathQuery, readPath, rfl⟩ := Option.map_eq_some_iff.mp read
            exact PathQuery.lineFeed_not_mem_text readPath
          · cases read

namespace Users

def AtCollection (target : String) (query : String) : Prop :=
  target = "/users" ∧ query = "" ∨ target = "/users?" ++ query

/-- The target is that of the user with this id, whatever query follows it. -/
def AtMember (target id : String) : Prop :=
  Template.IsValue id.toList ∧
    ∃ suffix, Template.IsSuffix suffix ∧ target.toList = "/users/".toList ++ (id.toList ++ suffix)

theorem divides_collection_iff (values : List (List Char)) (target : List Char) :
    collection.Divides values target ↔
      values = [] ∧ ∃ suffix, Template.IsSuffix suffix ∧ target = "/users".toList ++ suffix := by
  have read : collection = ⟨"/users".toList, []⟩ := by decide
  rw [Template.divides_iff, read]
  simp only [Template.dividesFrom_nil]
  constructor
  · rintro ⟨suffix, rfl, rfl, isSuffix⟩
    exact ⟨rfl, suffix, isSuffix, rfl⟩
  · rintro ⟨rfl, suffix, isSuffix, rfl⟩
    exact ⟨suffix, rfl, rfl, isSuffix⟩

theorem divides_member_iff (values : List (List Char)) (target : List Char) :
    member.Divides values target ↔
      ∃ value suffix, values = [value] ∧ Template.IsValue value ∧ Template.IsSuffix suffix ∧
        target = "/users/".toList ++ (value ++ suffix) := by
  have read : member = ⟨"/users/".toList, [("id".toList, [])]⟩ := by decide
  rw [Template.divides_iff, read]
  simp only [Template.dividesFrom_cons, Template.dividesFrom_nil]
  constructor
  · rintro ⟨_, rfl, value, _, suffix, rfl, isValue, rfl, rfl, isSuffix⟩
    exact ⟨value, suffix, rfl, isValue, isSuffix, rfl⟩
  · rintro ⟨value, suffix, rfl, isValue, isSuffix, rfl⟩
    exact ⟨_, rfl, value, [], suffix, rfl, isValue, rfl, rfl, isSuffix⟩

theorem accepts_collection_iff (target : String) :
    collection.accepts target = true ↔
      ∃ suffix, Template.IsSuffix suffix ∧ target.toList = "/users".toList ++ suffix := by
  simp only [Template.accepts_iff, divides_collection_iff, exists_eq_left]

theorem accepts_member_iff (target : String) :
    member.accepts target = true ↔ ∃ id, AtMember target id := by
  simp only [Template.accepts_iff, divides_member_iff]
  constructor
  · rintro ⟨_, value, suffix, rfl, isValue, isSuffix, shape⟩
    refine ⟨String.ofList value, ?_⟩
    rw [AtMember, String.toList_ofList]
    exact ⟨isValue, suffix, isSuffix, shape⟩
  · rintro ⟨id, isValue, suffix, isSuffix, shape⟩
    exact ⟨_, id.toList, suffix, rfl, isValue, isSuffix, shape⟩

theorem parameters_member {target id : String} (atMember : AtMember target id) :
    member.parameters target = [("id", id)] := by
  have names : member.names = ["id".toList] := by decide
  obtain ⟨isValue, suffix, isSuffix, shape⟩ := atMember
  rw [Template.parameters, names]
  rcases Template.values?_cases member target.toList with
    ⟨_, noDivision⟩ | ⟨values, found, divides, _⟩
  · exact absurd ((divides_member_iff _ _).mpr ⟨_, suffix, rfl, isValue, isSuffix, shape⟩)
      (noDivision _)
  · obtain ⟨value, rest, rfl, isValueToo, isRest, shapeToo⟩ := (divides_member_iff _ _).mp divides
    have same := List.append_cancel_left (shape.symm.trans shapeToo)
    have sameValue := congrArg (List.takeWhile Template.isValueChar) same
    rw [Template.takeWhile_value isValue isSuffix.stops,
      Template.takeWhile_value isValueToo isRest.stops] at sameValue
    rw [found, ← sameValue]
    simp

theorem atMember_unique {target id other : String} (atMember : AtMember target id)
    (atOther : AtMember target other) : id = other := by
  have same := (parameters_member atMember).symm.trans (parameters_member atOther)
  simpa using same

theorem accepts_collection {target query : String} (atCollection : AtCollection target query)
    (oneLine : '\n' ∉ target.toList) : collection.accepts target = true := by
  rw [accepts_collection_iff]
  rcases atCollection with ⟨rfl, _⟩ | rfl
  · exact ⟨[], Or.inl rfl, rfl⟩
  · refine ⟨'?' :: query.toList, Or.inr ⟨query.toList, rfl, ?_⟩, by simp⟩
    simp only [String.toList_append, List.mem_append, not_or] at oneLine
    exact oneLine.2

theorem query_of_atCollection {target query : String} (atCollection : AtCollection target query) :
    Query.ofTarget target = Query.ofText query := by
  rw [Query.ofTarget]
  rcases atCollection with ⟨rfl, rfl⟩ | rfl
  · rfl
  · simp

theorem router_groups : router.groups =
    [(.get, [⟨collection, listUsers⟩]), (.post, [⟨collection, createUser⟩]),
      (.put, [⟨member, updateUser⟩]), (.delete, [⟨member, deleteUser⟩])] := rfl

theorem find?_of_single (method : Method) (route : Route UserBase)
    (chosen : (router.groups.filter fun group => decide (group.1 = method)) = [(method, [route])])
    (target : String) :
    router.find? method target = if route.template.accepts target then some route else none := by
  rw [Router.find?, chosen]
  simp only [List.flatMap_cons, List.flatMap_nil, List.append_nil, List.find?_cons, List.find?_nil]
  cases route.template.accepts target <;> rfl

theorem find?_get (target : String) :
    router.find? .get target =
      if collection.accepts target then some ⟨collection, listUsers⟩ else none :=
  find?_of_single .get ⟨collection, listUsers⟩ rfl target

theorem find?_delete (target : String) :
    router.find? .delete target =
      if member.accepts target then some ⟨member, deleteUser⟩ else none :=
  find?_of_single .delete ⟨member, deleteUser⟩ rfl target

theorem accepts_of_find? {method : Method} {target : String} {route : Route UserBase}
    (found : router.find? method target = some route) : route.template.accepts target = true := by
  have accepted := List.find?_some found
  exact accepted

theorem route_cases {method : Method} {target : String} {route : Route UserBase}
    (found : router.find? method target = some route) :
    method = .get ∧ route = ⟨collection, listUsers⟩ ∨
      method = .post ∧ route = ⟨collection, createUser⟩ ∨
      method = .put ∧ route = ⟨member, updateUser⟩ ∨
      method = .delete ∧ route = ⟨member, deleteUser⟩ := by
  have isRoute := List.mem_of_find?_eq_some found
  obtain ⟨group, isGroup, inGroup⟩ := List.mem_flatMap.mp isRoute
  have isMethod := of_decide_eq_true (List.mem_filter.mp isGroup).2
  replace isGroup := (List.mem_filter.mp isGroup).1
  subst isMethod
  simp only [router_groups, List.mem_cons, List.not_mem_nil, or_false] at isGroup
  rcases isGroup with rfl | rfl | rfl | rfl <;> rw [List.mem_singleton.mp inGroup] <;> simp

end Users

end TableServer
