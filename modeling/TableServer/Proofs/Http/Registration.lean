import TableServer.Http.Router

/-! Which route a router takes. Routes are kept in groups, one for each method, but the one that is
taken is the same as if they stood in one list in the order of registration. -/

namespace TableServer

structure Registration (σ : Type) where
  method : String
  template : String
  handler : Handler σ

namespace Registration

variable {σ : Type}

def route (registration : Registration σ) : Route σ :=
  ⟨.ofText registration.template.toList, registration.handler⟩

def isFor (method : Method) (registration : Registration σ) : Bool :=
  asciiUpper registration.method == method.name

def serves (method : Method) (target : String) (registration : Registration σ) : Bool :=
  registration.isFor method && registration.route.template.accepts target

end Registration

namespace Router

variable {σ : Type}

def registerAll (router : Router σ) (registrations : List (Registration σ)) :
    Except RouteError (Router σ) :=
  registrations.foldlM
    (fun router registration =>
      router.route registration.method registration.template registration.handler) router

def routesFor (method : Method) (groups : List (Method × List (Route σ))) : List (Route σ) :=
  (groups.filter fun group => decide (group.1 = method)).flatMap Prod.snd

/-- The groups hold the routes of these registrations, each method in one group. -/
structure Holds (router : Router σ) (registrations : List (Registration σ)) : Prop where
  apart : (router.groups.map Prod.fst).Nodup
  routes : ∀ method, routesFor method router.groups =
    (registrations.filter (·.isFor method)).map Registration.route
  count : router.length = registrations.length

theorem routesFor_cons (method : Method) (group : Method × List (Route σ))
    (groups : List (Method × List (Route σ))) :
    routesFor method (group :: groups) =
      (if group.1 = method then group.2 else []) ++ routesFor method groups := by
  by_cases same : group.1 = method
  · simp [routesFor, same]
  · simp [routesFor, same]

theorem routesFor_of_absent {method : Method} {groups : List (Method × List (Route σ))}
    (absent : method ∉ groups.map Prod.fst) : routesFor method groups = [] := by
  induction groups with
  | nil => rfl
  | cons group groups ih =>
    simp only [List.map_cons, List.mem_cons, not_or] at absent
    rw [routesFor_cons, if_neg (Ne.symm absent.1), ih absent.2]
    rfl

theorem map_fst_addToGroup (method : Method) (route : Route σ)
    (groups : List (Method × List (Route σ))) :
    (addToGroup method route groups).map Prod.fst =
      if method ∈ groups.map Prod.fst then groups.map Prod.fst
      else groups.map Prod.fst ++ [method] := by
  induction groups with
  | nil => simp [addToGroup]
  | cons group groups ih =>
    by_cases same : group.1 = method
    · simp [addToGroup, same]
    · have other : method ≠ group.1 := Ne.symm same
      by_cases known : method ∈ groups.map Prod.fst
      · rw [if_pos known] at ih
        simp [addToGroup, same, other, ih, known]
      · rw [if_neg known] at ih
        simp [addToGroup, same, other, ih, known]

theorem routesFor_addToGroup {groups : List (Method × List (Route σ))}
    (apart : (groups.map Prod.fst).Nodup) (method other : Method) (route : Route σ) :
    routesFor other (addToGroup method route groups) =
      routesFor other groups ++ if method = other then [route] else [] := by
  induction groups with
  | nil =>
    rw [addToGroup, routesFor_cons]
    simp [routesFor]
  | cons group groups ih =>
    rw [List.map_cons, List.nodup_cons] at apart
    by_cases same : group.1 = method
    · have later := routesFor_of_absent apart.1
      rw [addToGroup, if_pos same, routesFor_cons, routesFor_cons]
      by_cases wanted : group.1 = other
      · rw [← wanted, later]
        simp [same]
      · simp [wanted, same ▸ wanted]
    · rw [addToGroup, if_neg same, routesFor_cons, routesFor_cons, ih apart.2, List.append_assoc]

theorem length_addToGroup (method : Method) (route : Route σ)
    (groups : List (Method × List (Route σ))) :
    (addToGroup method route groups).foldr (fun group rest => group.2.length + rest) 0 =
      groups.foldr (fun group rest => group.2.length + rest) 0 + 1 := by
  induction groups with
  | nil => rfl
  | cons group groups ih =>
    by_cases same : group.1 = method
    · simp only [addToGroup, same, if_true, List.foldr_cons, List.length_append,
        List.length_singleton]
      omega
    · simp only [addToGroup, same, if_false, List.foldr_cons, ih]
      omega

theorem length_register (router : Router σ) (method : Method) (route : Route σ) :
    (router.register method route).length = router.length + 1 :=
  length_addToGroup method route router.groups

theorem holds_empty (limit : Nat) : Holds (Router.empty.withBodyLimit limit : Router σ) [] :=
  ⟨List.nodup_nil, fun _ => rfl, rfl⟩

theorem isFor_iff (method : Method) (registration : Registration σ) :
    registration.isFor method = true ↔ ⟨asciiUpper registration.method⟩ = method := by
  cases method
  simp [Registration.isFor]

theorem eq_register_of_route {router next : Router σ} {registration : Registration σ}
    (added : router.route registration.method registration.template registration.handler =
      .ok next) :
    next = router.register ⟨asciiUpper registration.method⟩ registration.route := by
  simp only [route, Method.ofName?, Template.compile?] at added
  by_cases isName : isToken (asciiUpper registration.method).toList = true
  · by_cases distinct : (Template.ofText registration.template.toList).names.Nodup
    · simp only [isName, distinct, if_true] at added
      exact (Except.ok.inj added).symm
    · simp only [isName, distinct, if_true, if_false] at added
      cases added
  · simp only [isName] at added
    cases added

theorem holds_register {router : Router σ} {registrations : List (Registration σ)}
    (holds : router.Holds registrations) (registration : Registration σ) :
    (router.register ⟨asciiUpper registration.method⟩ registration.route).Holds
      (registrations ++ [registration]) := by
  obtain ⟨apart, routes, count⟩ := holds
  refine ⟨?_, fun method => ?_, ?_⟩
  · rw [register, map_fst_addToGroup]
    split
    · exact apart
    · rename_i fresh
      refine List.nodup_append.mpr ⟨apart, by simp, ?_⟩
      intro known isKnown single isSingle same
      rw [List.mem_singleton] at isSingle
      exact fresh (isSingle ▸ same ▸ isKnown)
  · rw [register, routesFor_addToGroup apart, routes, List.filter_append, List.map_append,
      List.append_cancel_left_eq]
    by_cases wanted : registration.isFor method = true
    · simp [wanted, (isFor_iff method registration).mp wanted]
    · have other := mt (isFor_iff method registration).mpr wanted
      simp [wanted, other]
  · rw [length_register, count, List.length_append, List.length_singleton]

theorem holds_registerAll {router extended : Router σ} {registrations : List (Registration σ)}
    (holds : router.Holds registrations) {more : List (Registration σ)}
    (registered : router.registerAll more = .ok extended) :
    extended.Holds (registrations ++ more) := by
  induction more generalizing router registrations with
  | nil =>
    cases registered
    rw [List.append_nil]
    exact holds
  | cons registration more ih =>
    rw [registerAll, List.foldlM_cons] at registered
    cases added : router.route registration.method registration.template registration.handler with
    | error error =>
      rw [added] at registered
      cases registered
    | ok next =>
      rw [added] at registered
      obtain rfl := eq_register_of_route added
      have further := ih (holds_register holds registration) registered
      rw [List.append_assoc] at further
      exact further

theorem find?_of_holds {router : Router σ} {registrations : List (Registration σ)}
    (holds : router.Holds registrations) (method : Method) (target : String) :
    router.find? method target =
      (registrations.find? (·.serves method target)).map Registration.route := by
  have grouped : router.find? method target =
      (routesFor method router.groups).find? fun route => route.template.accepts target := rfl
  rw [grouped, holds.routes, List.find?_map, List.find?_filter]
  apply congrArg fun chosen => Option.map Registration.route (List.find? chosen registrations)
  funext registration
  simp [Registration.serves]

theorem executeWithin_of_no_route {router : Router σ} {limit : Nat} {message : Message}
    (fits : message.body.size ≤ min router.bodyLimit limit)
    (unserved : router.find? message.method message.uri.target = none) (state : σ) :
    router.executeWithin limit message state = (Response.notFound.declaredJson, state) := by
  have answered (body : Option Json) :
      router.dispatch (Request.ofMessage message body) state = (.notFound, state) := by
    have target : (Request.ofMessage message body).target = message.uri.target := rfl
    have method : (Request.ofMessage message body).method = message.method := rfl
    rw [dispatch, method, target, unserved]
  rw [executeWithin, readLimitedBody, if_neg (Nat.not_lt.mpr fits)]
  simp only [answered]

/-- Registrations that all succeed give a router that takes the first of them, in their own order,
that serves a request; where there is none, the request is answered with 404, and so is a message
whose body can be read. Further registrations leave a request with a route its route. -/
theorem find?_of_registerAll {limit : Nat} {registrations : List (Registration σ)}
    {router : Router σ}
    (registered : (Router.empty.withBodyLimit limit).registerAll registrations = .ok router) :
    (∀ method target, router.find? method target =
      (registrations.find? (·.serves method target)).map Registration.route) ∧
    (∀ request state, router.find? request.method request.target = none →
      router.dispatch request state = (⟨404, none, none, "NOT FOUND"⟩, state)) ∧
    (∀ within message state, message.body.size ≤ min router.bodyLimit within →
      router.find? message.method message.uri.target = none →
        router.executeWithin within message state =
          (⟨404, some "application/json", none, "NOT FOUND"⟩, state)) ∧
    router.length = registrations.length ∧
    ∀ more extended, router.registerAll more = .ok extended →
      ∀ method target route, router.find? method target = some route →
        extended.find? method target = some route := by
  have holds := holds_registerAll (holds_empty limit) registered
  rw [List.nil_append] at holds
  refine ⟨find?_of_holds holds, ?_, ?_, holds.count, ?_⟩
  · intro request state unserved
    rw [dispatch, unserved]
    rfl
  · intro within message state fits unserved
    exact executeWithin_of_no_route fits unserved state
  · intro more extended registeredMore method target route found
    rw [find?_of_holds holds, Option.map_eq_some_iff] at found
    obtain ⟨registration, first, rfl⟩ := found
    rw [find?_of_holds (holds_registerAll holds registeredMore), List.find?_append, first]
    rfl

def interleaved : List (Registration Unit) :=
  [⟨"get", "/items/:id", fun _ state => (.empty 200, state)⟩,
    ⟨"Purge", "/items", fun _ state => (.empty 204, state)⟩,
    ⟨"GET", "/items/:name", fun _ state => (.empty 202, state)⟩]

theorem find?_of_interleaved :
    ∃ router, (Router.empty.withBodyLimit 16 : Router Unit).registerAll interleaved = .ok router ∧
      router.length = 3 ∧
      router.find? .get "/items/7" =
        some ⟨.ofText "/items/:id".toList, fun _ state => (.empty 200, state)⟩ := by
  have registered : (Router.empty.withBodyLimit 16 : Router Unit).registerAll interleaved =
      .ok ⟨[(.get, [⟨.ofText "/items/:id".toList, fun _ state => (.empty 200, state)⟩,
          ⟨.ofText "/items/:name".toList, fun _ state => (.empty 202, state)⟩]),
        (⟨"PURGE"⟩, [⟨.ofText "/items".toList, fun _ state => (.empty 204, state)⟩])], 16⟩ := by
    rfl
  obtain ⟨found, _, _, count, _⟩ := find?_of_registerAll registered
  refine ⟨_, registered, count, ?_⟩
  rw [found]
  rfl

end Router

end TableServer
