import TableServer.Proofs.Service.Receptions
import TableServer.Service.Serving

/-! What the users of a shutdown get from it. Each subscriber learns of the triggers since its
subscription and of no other, and a server that looks stops exactly if there was one; triggering
always succeeds. -/

namespace TableServer

theorem Reception.due_eq_empty_iff (capacity behind : Nat) :
    due capacity behind = .empty ↔ behind = 0 := by
  rw [due]
  split
  · simpa
  · split <;> simpa

namespace Serving

variable {shutdown : Shutdown} {id behind : Nat}

def after (state : Serving × Shutdown) (events : List ServingEvent) : Serving × Shutdown :=
  events.foldl happen state

/-- Nobody else uses the subscription of the server. -/
def Owns (id : Nat) (events : List ServingEvent) : Prop :=
  .outside (.receive id) ∉ events ∧ .outside (.drop id) ∉ events

theorem owns_cons_iff (id : Nat) (event : ServingEvent) (rest : List ServingEvent) :
    Owns id (event :: rest) ↔
      (.outside (.receive id) ≠ event ∧ .outside (.drop id) ≠ event) ∧ Owns id rest := by
  simp only [Owns, List.mem_cons, not_or, ne_eq]
  exact and_and_and_comm

theorem stopped_stays (shutdown : Shutdown) (events : List ServingEvent) :
    (after (stopped, shutdown) events).1 = stopped := by
  induction events generalizing shutdown with
  | nil => rfl
  | cons event rest ih =>
    cases event with
    | poll => exact ih shutdown
    | outside event => exact ih (shutdown.happen event).2

theorem poll_of_empty (waits : (shutdown.receive id).1 = .empty) :
    (listening id).poll shutdown = (listening id, (shutdown.receive id).2) := by
  rw [poll]
  generalize shutdown.receive id = outcome at waits
  obtain ⟨reception, next⟩ := outcome
  cases waits
  rfl

theorem poll_of_told (told : (shutdown.receive id).1 ≠ .empty) :
    ∃ next, (listening id).poll shutdown = (stopped, next) := by
  rw [poll]
  generalize shutdown.receive id = outcome at told
  obtain ⟨reception, next⟩ := outcome
  cases reception with
  | empty => exact absurd rfl told
  | received | lagged | dropped => exact ⟨_, rfl⟩

theorem poll_cases (holds : shutdown.channel.Behind id behind) :
    (behind = 0 ∧ ∃ next : Shutdown,
        (listening id).poll shutdown = (listening id, next) ∧ next.channel.Behind id 0) ∨
      behind ≠ 0 ∧ ∃ next, (listening id).poll shutdown = (stopped, next) := by
  obtain ⟨answer, left, nearer, split⟩ := holds.receive_self
  have empty_iff : (shutdown.receive id).1 = .empty ↔ behind = 0 := by
    rw [← Reception.due_eq_empty_iff shutdown.channel.capacity, ← answer]
    rfl
  by_cases nothing : behind = 0
  · obtain rfl : left = 0 := by omega
    exact Or.inl ⟨nothing, _, poll_of_empty (empty_iff.mpr nothing), nearer⟩
  · exact Or.inr ⟨nothing, poll_of_told (mt empty_iff.mp nothing)⟩

theorem stopped_after_iff (holds : shutdown.channel.Behind id behind) {events : List ServingEvent}
    (owns : Owns id events) :
    (after (listening id, shutdown) events).1 = stopped ↔
      [.outside .trigger, .poll].Sublist events ∨ behind ≠ 0 ∧ .poll ∈ events := by
  induction events generalizing shutdown behind with
  | nil => simp [after]
  | cons event rest ih =>
    obtain ⟨⟨noReceive, noDrop⟩, later⟩ := (owns_cons_iff id event rest).mp owns
    rw [List.cons_sublist_cons', List.singleton_sublist, List.mem_cons]
    cases event with
    | poll =>
      rcases poll_cases holds with ⟨nothing, next, goesOn, still⟩ | ⟨something, next, stops⟩
      · have unchanged : after (listening id, shutdown) (.poll :: rest) =
            after (listening id, next) rest := congrArg (after · rest) goesOn
        rw [unchanged, ih still later]
        simp [nothing]
      · have halted : after (listening id, shutdown) (.poll :: rest) = after (stopped, next) rest :=
          congrArg (after · rest) stops
        rw [halted]
        simp [stopped_stays, something]
    | outside event =>
      by_cases triggers : event = .trigger
      · subst triggers
        have farther : (shutdown.happen .trigger).2.channel.Behind id (behind + 1) := holds.send
        refine Iff.trans (ih farther later) ?_
        grind
      · have spares : event.Spares id :=
          ⟨triggers, fun same => noReceive (congrArg _ same.symm),
            fun same => noDrop (congrArg _ same.symm)⟩
        refine Iff.trans (ih (Shutdown.behind_of_spares spares holds) later) ?_
        simp [Ne.symm triggers]

theorem trigger_sublist_concat_iff (events : List ServingEvent) :
    [.outside .trigger, .poll].Sublist (events ++ [.poll]) ↔ .outside .trigger ∈ events := by
  constructor
  · intro inside
    have member := inside.subset List.mem_cons_self
    simpa using member
  · intro member
    exact (List.singleton_sublist.mpr member).append (List.Sublist.refl [ServingEvent.poll])

end Serving

namespace Shutdown

theorem trigger_of_nobody {shutdown : Shutdown} (nobody : shutdown.receiverCount = 0) :
    shutdown.trigger = (0, shutdown) := by
  have refused : shutdown.channel.send = (none, shutdown.channel) := if_pos nobody
  rw [trigger, refused]
  rfl

/-- What holds after any run from a new shutdown. A subscriber that has come and is still there is
told as its triggers say that came after it and are not accounted for yet, and never of more than
these. Triggering is done at once, and nothing but the subscribers there are counts as told. A
server that subscribes now will have stopped exactly if it looked after a trigger, so the next time
it looks it stops exactly if there has been one. -/
theorem told_along_run (events : List ShutdownEvent) :
    let shutdown := new.after events
    (∀ id since, Subscribed id events since →
      let settled := covered (receptions id new events)
      settled ≤ since.count .trigger ∧ shutdown.Tells id (since.count .trigger - settled)) ∧
    ((shutdown.happen .trigger).1 = .done ∧ shutdown.trigger.1 = shutdown.receiverCount ∧
      (shutdown.receiverCount = 0 → shutdown.trigger.2 = shutdown)) ∧
    shutdown.receiverCount = {id | ∃ since, Subscribed id events since}.ncard ∧
    let id := events.count .subscribe
    (shutdown.happen .subscribe).1 = .number id ∧
    ∀ later, Serving.Owns id later →
      let state := Serving.after (.listening id, (shutdown.happen .subscribe).2) later
      (state.1 = .stopped ↔ [.outside .trigger, .poll].Sublist later) ∧
      ((state.1.poll state.2).1 = .stopped ↔ .outside .trigger ∈ later) := by
  intro shutdown
  have latest : shutdown.channel.capacity = 1 := capacity_after new events
  refine ⟨?_, ⟨rfl, shutdown.channel.send_fst, ?_⟩, receiverCount_after events, ?_⟩
  · intro id since subscribed settled
    obtain ⟨left, holds, total⟩ := behind_of_subscribed subscribed
    have unreceived : since.count .trigger - settled = left := by omega
    rw [unreceived]
    exact ⟨by omega, tells_of_behind holds latest⟩
  · intro nobody
    rw [trigger_of_nobody nobody]
  · intro id
    have number : shutdown.channel.subscribers.length = id :=
      (length_subscribers_after new events).trans (Nat.zero_add id)
    have begins : (shutdown.happen .subscribe).2.channel.Behind id 0 :=
      number ▸ shutdown.channel.behind_subscribed
    refine ⟨congrArg ShutdownAnswer.number number, fun later owns => ⟨?_, ?_⟩⟩
    · simpa using Serving.stopped_after_iff begins owns
    · have ownsNext : Serving.Owns id (later ++ [.poll]) := by
        simpa [Serving.Owns] using owns
      have looked := Serving.stopped_after_iff begins ownsNext
      simp only [ne_eq, not_true_eq_false, false_and, or_false] at looked
      rw [Serving.trigger_sublist_concat_iff, Serving.after, List.foldl_append] at looked
      exact looked

def slowAndLate : List ShutdownEvent :=
  [.trigger, .subscribe, .trigger, .clone, .subscribe, .trigger, .receive 1]

def triggeredTwice : List ServingEvent :=
  [.poll, .outside (.receive 0), .outside .trigger, .outside .trigger, .poll]

theorem told_along_slowAndLate :
    let shutdown := new.after slowAndLate
    Subscribed 0 slowAndLate [.trigger, .clone, .subscribe, .trigger, .receive 1] ∧
      shutdown.Tells 0 2 ∧ Subscribed 1 slowAndLate [.trigger, .receive 1] ∧ shutdown.Tells 1 0 ∧
      {id | ∃ since, Subscribed id slowAndLate since}.ncard = 2 ∧
      Serving.Owns 2 triggeredTwice ∧
      (Serving.after (.listening 2, (shutdown.happen .subscribe).2) triggeredTwice).1 = .stopped := by
  intro shutdown
  have slow : Subscribed 0 slowAndLate [.trigger, .clone, .subscribe, .trigger, .receive 1] :=
    ⟨[.trigger], rfl, rfl, by decide⟩
  have late : Subscribed 1 slowAndLate [.trigger, .receive 1] :=
    ⟨[.trigger, .subscribe, .trigger, .clone], rfl, rfl, by decide⟩
  have owns : Serving.Owns 2 triggeredTwice := ⟨by decide, by decide⟩
  obtain ⟨told, -, count, -, stops⟩ := told_along_run slowAndLate
  exact ⟨slow, (told 0 _ slow).2, late, (told 1 _ late).2, count.symm, owns,
    (stops _ owns).1.mpr (by decide)⟩

end Shutdown

end TableServer
