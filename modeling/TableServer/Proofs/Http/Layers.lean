import TableServer.Http.Server

/-! What the layers around a router make of its answers. A body within the limit passes them, one
that is declared longer is refused before the router, and one that is longer and not declared is
refused by the router before it looks for a route. The id of the request comes back in each case. -/

namespace TableServer

namespace Message

theorem withRequestId_method (message : Message) (fresh : String) :
    (message.withRequestId fresh).method = message.method := by
  rw [withRequestId]
  split <;> rfl

theorem withRequestId_uri (message : Message) (fresh : String) :
    (message.withRequestId fresh).uri = message.uri := by
  rw [withRequestId]
  split <;> rfl

theorem withRequestId_body (message : Message) (fresh : String) :
    (message.withRequestId fresh).body = message.body := by
  rw [withRequestId]
  split <;> rfl

theorem requestId?_withRequestId (message : Message) (fresh : String) :
    (message.withRequestId fresh).requestId? = some (message.requestId?.getD fresh) := by
  rw [withRequestId]
  cases carried : message.requestId? with
  | some id => exact carried
  | none =>
    have absent : message.headers.lookup requestIdField = none := carried
    have appended : (message.headers ++ [(requestIdField, fresh)]).lookup requestIdField =
        some fresh := by
      rw [List.lookup_append, absent]
      simp
    exact appended

theorem declaredLength?_withRequestId (message : Message) (fresh : String) :
    (message.withRequestId fresh).declaredLength? = message.declaredLength? := by
  rw [withRequestId]
  split
  · rfl
  · have same : Headers.plain? (message.headers ++ [(requestIdField, fresh)]) "content-length" =
        Headers.plain? message.headers "content-length" := by
      simp [Headers.plain?, Headers.first?, List.lookup_append, requestIdField]
    simp only [declaredLength?, same]

/-- The length that the message declares, if any, is that of its body. -/
def DeclaresTruly (message : Message) : Prop :=
  ∀ length, message.declaredLength? = some length → length = message.body.size

end Message

namespace Router

variable {σ : Type}

def SetsNoRequestId (router : Router σ) : Prop :=
  ∀ group ∈ router.groups, ∀ route ∈ group.2, ∀ request state,
    (route.handler request state).1.requestId = none

theorem requestId_dispatch {router : Router σ} (quiet : router.SetsNoRequestId)
    (request : Request) (state : σ) : (router.dispatch request state).1.requestId = none := by
  rw [dispatch]
  split
  · rfl
  · rename_i route found
    obtain ⟨group, isGroup, isRoute⟩ := List.mem_flatMap.mp (List.mem_of_find?_eq_some found)
    exact quiet group (List.mem_filter.mp isGroup).1 route isRoute _ _

theorem executeWithin_of_exceeds {router : Router σ} {limit : Nat} {message : Message}
    (exceeds : min router.bodyLimit limit < message.body.size) (state : σ) :
    router.executeWithin limit message state = (.error 400 BodyError.tooLong.message, state) := by
  rw [executeWithin, readLimitedBody, if_pos exceeds]

theorem executeWithin_of_fits {router : Router σ} {limit : Nat} {message : Message}
    (fits : message.body.size ≤ min router.bodyLimit limit) (state : σ) :
    router.executeWithin limit message state =
      ((router.dispatch (.ofMessage message (readJsonBody message.body)) state).1.declaredJson,
        (router.dispatch (.ofMessage message (readJsonBody message.body)) state).2) := by
  rw [executeWithin, readLimitedBody, if_neg (Nat.not_lt.mpr fits)]

theorem executeWithin_eq_execute {router : Router σ} {limit : Nat} {message : Message}
    (fits : message.body.size ≤ min router.bodyLimit limit) (state : σ) :
    router.executeWithin limit message state = router.execute message state := by
  have fitsAlone : message.body.size ≤ min router.bodyLimit router.bodyLimit := by omega
  rw [execute, executeWithin_of_fits fits, executeWithin_of_fits fitsAlone]

theorem requestId_execute {router : Router σ} (quiet : router.SetsNoRequestId)
    (message : Message) (state : σ) : (router.execute message state).1.requestId = none := by
  rw [execute]
  by_cases fits : message.body.size ≤ min router.bodyLimit router.bodyLimit
  · rw [executeWithin_of_fits fits]
    exact requestId_dispatch quiet _ state
  · rw [executeWithin_of_exceeds (Nat.not_le.mp fits)]
    rfl

end Router

namespace Server

variable {σ : Type}

theorem limited_of_declared {server : Server σ} {message : Message} {length : Nat}
    (declared : message.declaredLength? = some length) (exceeds : server.maxBodySize < length)
    (state : σ) : server.limited message state = (tooLarge, state) := by
  simp only [limited, declared]
  exact if_pos exceeds

theorem limited_of_undeclared {server : Server σ} {message : Message}
    (undeclared : message.declaredLength? = none) (exceeds : server.maxBodySize < message.body.size)
    (state : σ) :
    server.limited message state = (.error 400 BodyError.tooLong.message, state) := by
  simp only [limited, undeclared]
  exact Router.executeWithin_of_exceeds (by omega) state

theorem limited_of_fits {server : Server σ} {message : Message}
    (truly : message.DeclaresTruly) (fits : message.body.size ≤ server.maxBodySize)
    (fitsRouter : message.body.size ≤ server.router.bodyLimit) (state : σ) :
    server.limited message state = server.router.execute message state := by
  rw [limited]
  split
  · exact Router.executeWithin_eq_execute (by omega) state
  · rename_i length declared
    have same := truly length declared
    rw [if_neg (by omega)]
    exact Router.executeWithin_eq_execute (by omega) state

theorem status_trimmed (method : Method) (response : Response) :
    (trimmed method response).status = response.status := by
  rw [trimmed]
  split <;> rfl

def shown (method : Method) (text : String) : String :=
  if method = .head then "" else text

theorem trimmed_eq {method : Method} (isRequest : method ≠ .connect) (response : Response) :
    trimmed method response = { response with body := shown method response.body } := by
  by_cases isHead : method = .head
  · simp [trimmed, shown, isHead, Response.withoutBody]
  · simp [trimmed, shown, isHead, isRequest]

theorem respond_eq {server : Server σ} {message : Message} (isRequest : message.method ≠ .connect)
    (fresh : String) (state : σ) {response : Response} {next : σ}
    (answered : server.limited (message.withRequestId fresh) state = (response, next))
    (anonymous : response.requestId = none) :
    server.respond fresh message state =
      (⟨response.status, response.contentType, some (message.requestId?.getD fresh),
        shown message.method response.body⟩, next) := by
  simp only [respond, answered, trimmed_eq isRequest, identifiedBy, anonymous,
    Message.requestId?_withRequestId]
  rfl

theorem error_tooLong :
    Response.error 400 BodyError.tooLong.message = ⟨400, some "application/json", none,
      "\x7b\"error\":\"Failed to read request body: length limit exceeded\"\x7d"⟩ := by
  decide +kernel

/-- The answers of a server whose router and layers have the same limit, told by the length of the
body. The handlers are taken to leave the id of the request to the layers. -/
theorem respond_outcome {router : Router σ} (quiet : router.SetsNoRequestId) (limit : Nat)
    (fresh : String) {message : Message} (isRequest : message.method ≠ .connect)
    (truly : message.DeclaresTruly) (state : σ) :
    let server : Server σ := ⟨router.withBodyLimit limit, limit⟩
    let answer := server.respond fresh message state
    let bare := (router.withBodyLimit limit).execute (message.withRequestId fresh) state
    let id := some (message.requestId?.getD fresh)
    (limit < message.body.size → message.declaredLength? ≠ none →
      answer = (⟨413, some "text/plain; charset=utf-8", id,
        shown message.method "length limit exceeded"⟩, state)) ∧
    (limit < message.body.size → message.declaredLength? = none →
      answer = (⟨400, some "application/json", id, shown message.method
        "\x7b\"error\":\"Failed to read request body: length limit exceeded\"\x7d"⟩, state)) ∧
    (message.body.size ≤ limit →
      answer = (⟨bare.1.status, bare.1.contentType, id,
        shown message.method bare.1.body⟩, bare.2)) := by
  intro server answer bare id
  have sameBody := message.withRequestId_body fresh
  have sameLength := message.declaredLength?_withRequestId fresh
  refine ⟨?_, ?_, ?_⟩
  · intro exceeds declares
    obtain ⟨length, declared⟩ := Option.ne_none_iff_exists'.mp declares
    rw [truly length declared] at declared
    have refused : server.limited (message.withRequestId fresh) state = (tooLarge, state) :=
      limited_of_declared (sameLength.trans declared) exceeds state
    exact respond_eq isRequest fresh state refused rfl
  · intro exceeds undeclared
    have exceedsToo : limit < (message.withRequestId fresh).body.size := by
      rw [sameBody]
      exact exceeds
    have unread : server.limited (message.withRequestId fresh) state =
        (.error 400 BodyError.tooLong.message, state) :=
      limited_of_undeclared (sameLength.trans undeclared) exceedsToo state
    rw [error_tooLong] at unread
    exact respond_eq isRequest fresh state unread rfl
  · intro fits
    have trulyIdentified : (message.withRequestId fresh).DeclaresTruly := by
      intro length declared
      rw [sameBody]
      exact truly length (sameLength.symm.trans declared)
    have fitsIdentified : (message.withRequestId fresh).body.size ≤ limit := by
      rw [sameBody]
      exact fits
    have passed : server.limited (message.withRequestId fresh) state = bare :=
      limited_of_fits trulyIdentified fitsIdentified fitsIdentified state
    have quietToo : (router.withBodyLimit limit).SetsNoRequestId := quiet
    exact respond_eq isRequest fresh state passed (Router.requestId_execute quietToo _ state)

def counting : Router Nat :=
  Router.empty.register .post
    ⟨.ofText "/count".toList, fun _ calls => (.json 200 (.ofNat calls), calls + 1)⟩

def threeBytes : Message :=
  ⟨.post, .origin ⟨"/count", none⟩, [("content-length", "3"), ("x-request-id", "")],
    ⟨#[91, 49, 93]⟩⟩

theorem respond_outcome_of_threeBytes :
    counting.SetsNoRequestId ∧ threeBytes.DeclaresTruly ∧
      respond ⟨counting.withBodyLimit 2, 2⟩ "fresh" threeBytes 7 =
        (⟨413, some "text/plain; charset=utf-8", some "", "length limit exceeded"⟩, 7) ∧
      respond ⟨counting.withBodyLimit 3, 3⟩ "fresh" threeBytes 7 =
        (⟨200, some "application/json", some "", "7"⟩, 8) := by
  have quiet : counting.SetsNoRequestId := by
    simp [Router.SetsNoRequestId, counting, Router.register, Router.addToGroup, Router.empty,
      Response.json]
  have declared : threeBytes.declaredLength? = some 3 := by decide +kernel
  have truly : threeBytes.DeclaresTruly := by
    intro length states
    rw [declared] at states
    cases states
    rfl
  have isRequest : threeBytes.method ≠ .connect := by decide
  have refused := (respond_outcome quiet 2 "fresh" isRequest truly 7).1 (by decide) (by simp [declared])
  have answered := (respond_outcome quiet 3 "fresh" isRequest truly 7).2.2 (by decide)
  exact ⟨quiet, truly, refused, answered.trans (by decide +kernel)⟩

end Server

end TableServer
