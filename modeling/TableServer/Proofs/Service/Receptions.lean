import Mathlib.Data.Set.Card
import TableServer.Service.Shutdown

/-! What a subscriber of the shutdown is told. Its distance from the newest trigger decides what it
receives, and along any run that distance is the number of triggers since its subscription, less
those it has received and those it was told are lost; what other subscribers do changes nothing
about it. -/

namespace TableServer

namespace Reception

/-- The messages that a reception accounts for: the one received, or those it says are lost. -/
def covered : Reception → Nat
  | received => 1
  | lagged lost => lost
  | empty | dropped => 0

def due (capacity behind : Nat) : Reception :=
  if behind = 0 then empty
  else if behind ≤ capacity then received
  else lagged (behind - capacity)

end Reception

namespace Broadcast

variable {channel : Broadcast} {id behind : Nat}

def Listens (channel : Broadcast) (id : Nat) : Prop :=
  ∃ passed, channel.subscribers[id]? = some (some passed)

/-- A subscriber has so many messages to receive, those included that are no longer kept. -/
def Behind (channel : Broadcast) (id behind : Nat) : Prop :=
  ∃ passed, channel.subscribers[id]? = some (some passed) ∧ passed + behind = channel.sent

theorem receiverCount_pos (listens : channel.Listens id) : 0 < channel.receiverCount := by
  obtain ⟨passed, found⟩ := listens
  exact List.countP_pos_iff.mpr ⟨some passed, List.mem_of_getElem? found, rfl⟩

theorem send_fst (channel : Broadcast) : channel.send.1.getD 0 = channel.receiverCount := by
  rw [send]
  split
  · rename_i nobody
    exact nobody.symm
  · rfl

theorem subscribers_send (channel : Broadcast) :
    channel.send.2.subscribers = channel.subscribers := by
  rw [send]
  split <;> rfl

theorem capacity_send (channel : Broadcast) : channel.send.2.capacity = channel.capacity := by
  rw [send]
  split <;> rfl

theorem receive_cases (channel : Broadcast) (id : Nat) :
    (channel.receive id).2 = channel ∨
      channel.Listens id ∧ ∃ position, (channel.receive id).2 = channel.moveTo id position := by
  rw [receive]
  split
  · exact Or.inl rfl
  · rename_i passed found
    have listens : channel.Listens id := ⟨passed, Option.join_eq_some_iff.mp found⟩
    dsimp only
    split
    · exact Or.inl rfl
    · split
      · exact Or.inr ⟨listens, _, rfl⟩
      · exact Or.inr ⟨listens, _, rfl⟩

theorem capacity_receive (channel : Broadcast) (id : Nat) :
    (channel.receive id).2.capacity = channel.capacity := by
  rcases receive_cases channel id with same | ⟨-, position, moved⟩
  · rw [same]
  · rw [moved]
    rfl

theorem length_receive (channel : Broadcast) (id : Nat) :
    (channel.receive id).2.subscribers.length = channel.subscribers.length := by
  rcases receive_cases channel id with same | ⟨-, position, moved⟩
  · rw [same]
  · rw [moved]
    exact List.length_set

theorem listens_moveTo_iff (listens : channel.Listens id) (position other : Nat) :
    (channel.moveTo id position).Listens other ↔ channel.Listens other := by
  obtain ⟨passed, found⟩ := listens
  by_cases same : id = other
  · subst same
    have inside : id < channel.subscribers.length := (List.getElem?_eq_some_iff.mp found).1
    simp [Listens, moveTo, found, List.getElem?_set_self inside]
  · simp [Listens, moveTo, List.getElem?_set_ne same]

theorem listens_receive_iff (channel : Broadcast) (id other : Nat) :
    (channel.receive id).2.Listens other ↔ channel.Listens other := by
  rcases receive_cases channel id with same | ⟨listens, position, moved⟩
  · rw [same]
  · rw [moved]
    exact listens_moveTo_iff listens position other

theorem listens_drop_iff (channel : Broadcast) (id other : Nat) :
    (channel.drop id).Listens other ↔ channel.Listens other ∧ other ≠ id := by
  by_cases same : id = other
  · subst same
    simp [Listens, drop, List.getElem?_set]
  · simp [Listens, drop, List.getElem?_set_ne same, Ne.symm same]

theorem listens_subscribe_iff (channel : Broadcast) (other : Nat) :
    channel.subscribe.2.Listens other ↔
      channel.Listens other ∨ other = channel.subscribers.length := by
  rcases Nat.lt_trichotomy other channel.subscribers.length with earlier | rfl | later
  · simp [Listens, subscribe, List.getElem?_append_left earlier, earlier.ne]
  · simp [Listens, subscribe]
  · have beyond : channel.subscribers.length ≤ other := later.le
    have outside : (channel.subscribers ++ [some channel.sent])[other]? = none := by
      rw [List.getElem?_eq_none_iff, List.length_append]
      exact later
    simp [Listens, subscribe, outside, List.getElem?_eq_none beyond, later.ne']

theorem behind_subscribed (channel : Broadcast) :
    channel.subscribe.2.Behind channel.subscribers.length 0 :=
  ⟨channel.sent, by simp [subscribe], rfl⟩

theorem Behind.listens (holds : channel.Behind id behind) : channel.Listens id := by
  obtain ⟨passed, found, -⟩ := holds
  exact ⟨passed, found⟩

theorem Behind.subscribe (holds : channel.Behind id behind) :
    channel.subscribe.2.Behind id behind := by
  obtain ⟨passed, found, distance⟩ := holds
  have inside : id < channel.subscribers.length := (List.getElem?_eq_some_iff.mp found).1
  refine ⟨passed, ?_, distance⟩
  rw [← found]
  exact List.getElem?_append_left inside

theorem Behind.send (holds : channel.Behind id behind) :
    channel.send.2.Behind id (behind + 1) := by
  have somebody : channel.receiverCount ≠ 0 := (receiverCount_pos holds.listens).ne'
  obtain ⟨passed, found, distance⟩ := holds
  rw [Broadcast.send, if_neg somebody]
  exact ⟨passed, found, congrArg (· + 1) distance⟩

theorem Behind.drop_other (holds : channel.Behind id behind) {other : Nat}
    (different : other ≠ id) : (channel.drop other).Behind id behind := by
  obtain ⟨passed, found, distance⟩ := holds
  refine ⟨passed, ?_, distance⟩
  rw [← found]
  exact List.getElem?_set_ne different

theorem Behind.receive_other (holds : channel.Behind id behind) {other : Nat}
    (different : other ≠ id) : (channel.receive other).2.Behind id behind := by
  obtain ⟨passed, found, distance⟩ := holds
  rcases receive_cases channel other with same | ⟨-, position, moved⟩
  · rw [same]
    exact ⟨passed, found, distance⟩
  · rw [moved]
    refine ⟨passed, ?_, distance⟩
    rw [← found]
    exact List.getElem?_set_ne different

theorem behind_moveTo (listens : channel.Listens id) {position : Nat}
    (bound : position ≤ channel.sent) :
    (channel.moveTo id position).Behind id (channel.sent - position) := by
  obtain ⟨passed, found⟩ := listens
  have inside : id < channel.subscribers.length := (List.getElem?_eq_some_iff.mp found).1
  refine ⟨position, ?_, Nat.add_sub_cancel' bound⟩
  exact List.getElem?_set_self inside

theorem Behind.receive_self (holds : channel.Behind id behind) :
    (channel.receive id).1 = .due channel.capacity behind ∧
      ∃ left, (channel.receive id).2.Behind id left ∧
        behind = (channel.receive id).1.covered + left := by
  have listens := holds.listens
  obtain ⟨passed, found, distance⟩ := holds
  have present : channel.subscribers[id]?.join = some passed := by rw [found, Option.join_some]
  have apart : channel.sent - passed = behind := by omega
  have kept_iff : behind ≤ channel.kept ↔ behind ≤ channel.capacity := by
    rw [kept]
    omega
  simp only [receive, present, apart, kept_iff]
  rw [Reception.due]
  split
  · exact ⟨rfl, behind, ⟨passed, found, distance⟩, (Nat.zero_add behind).symm⟩
  · split
    · have further := behind_moveTo listens (show passed + 1 ≤ channel.sent by omega)
      refine ⟨rfl, _, further, ?_⟩
      rw [Reception.covered]
      omega
    · have kept : channel.kept = channel.capacity := by
        rw [kept]
        omega
      have oldest := behind_moveTo listens (Nat.sub_le channel.sent channel.capacity)
      rw [kept]
      refine ⟨rfl, _, oldest, ?_⟩
      rw [Reception.covered]
      omega

theorem ncard_listens (channel : Broadcast) :
    {id | channel.Listens id}.ncard = channel.receiverCount := by
  let places := List.range channel.subscribers.length
  let there (place : Nat) : Bool := channel.subscribers[place]?.join.isSome
  have listens_iff (id : Nat) : channel.Listens id ↔ there id = true := by
    simp [Listens, there, Option.isSome_iff_exists, Option.join_eq_some_iff]
  have inside (id : Nat) (listens : there id = true) : id ∈ places := by
    obtain ⟨passed, found⟩ := (listens_iff id).mpr listens
    exact List.mem_range.mpr (List.getElem?_eq_some_iff.mp found).1
  have asList : {id | channel.Listens id} = (places.filter there).toFinset := by
    ext id
    simp only [Set.mem_ofPred_eq, List.coe_toFinset, List.mem_filter, listens_iff]
    exact ⟨fun listens => ⟨inside id listens, listens⟩, And.right⟩
  have once : (places.filter there).Nodup := List.nodup_range.filter there
  have subscribers : places.map (fun place => channel.subscribers[place]?.join) =
      channel.subscribers := by
    apply List.ext_getElem
    · simp [places]
    · intro place first second
      simp [places, List.getElem?_eq_getElem second]
  have counted : places.countP there = channel.receiverCount := by
    rw [receiverCount]
    conv_rhs => rw [← subscribers, List.countP_map]
    rfl
  rw [asList, Set.ncard_coe_finset, List.toFinset_card_of_nodup once, ← List.countP_eq_length_filter,
    counted]

end Broadcast

namespace ShutdownEvent

def Spares (id : Nat) (event : ShutdownEvent) : Prop :=
  event ≠ .trigger ∧ event ≠ .receive id ∧ event ≠ .drop id

instance (id : Nat) (event : ShutdownEvent) : Decidable (event.Spares id) :=
  inferInstanceAs (Decidable (_ ∧ _ ∧ _))

def onChannel (channel : Broadcast) : ShutdownEvent → Broadcast
  | .clone => channel
  | .subscribe => channel.subscribe.2
  | .trigger => channel.send.2
  | .drop id => channel.drop id
  | .receive id => (channel.receive id).2

end ShutdownEvent

namespace Shutdown

variable {shutdown : Shutdown} {id behind : Nat}

def after (shutdown : Shutdown) (events : List ShutdownEvent) : Shutdown :=
  events.foldl (fun shutdown event => (shutdown.happen event).2) shutdown

def receptions (id : Nat) : Shutdown → List ShutdownEvent → List Reception
  | _, [] => []
  | shutdown, event :: rest =>
    let further := receptions id (shutdown.happen event).2 rest
    if event = .receive id then (shutdown.receive id).1 :: further else further

def covered (receptions : List Reception) : Nat :=
  (receptions.map Reception.covered).sum

/-- The subscriber with this number is still there, and these are the events since it came. -/
def Subscribed (id : Nat) (events since : List ShutdownEvent) : Prop :=
  ∃ before, events = before ++ .subscribe :: since ∧ before.count .subscribe = id ∧
    .drop id ∉ since

theorem channel_happen (shutdown : Shutdown) (event : ShutdownEvent) :
    (shutdown.happen event).2.channel = event.onChannel shutdown.channel := by
  cases event <;> rfl

theorem after_append (shutdown : Shutdown) (first second : List ShutdownEvent) :
    shutdown.after (first ++ second) = (shutdown.after first).after second :=
  List.foldl_append

theorem receptions_append (id : Nat) (shutdown : Shutdown) (first second : List ShutdownEvent) :
    receptions id shutdown (first ++ second) =
      receptions id shutdown first ++ receptions id (shutdown.after first) second := by
  induction first generalizing shutdown with
  | nil => rfl
  | cons event rest ih =>
    simp only [List.cons_append, receptions, ih]
    split <;> rfl

theorem covered_append (first second : List Reception) :
    covered (first ++ second) = covered first + covered second := by
  simp [covered]

theorem capacity_happen (shutdown : Shutdown) (event : ShutdownEvent) :
    (shutdown.happen event).2.channel.capacity = shutdown.channel.capacity := by
  cases event with
  | clone | subscribe | drop => rfl
  | trigger => exact shutdown.channel.capacity_send
  | receive id => exact shutdown.channel.capacity_receive id

theorem capacity_after (shutdown : Shutdown) (events : List ShutdownEvent) :
    (shutdown.after events).channel.capacity = shutdown.channel.capacity := by
  induction events generalizing shutdown with
  | nil => rfl
  | cons event rest ih => exact (ih (shutdown.happen event).2).trans (capacity_happen shutdown event)

theorem length_subscribers_happen (shutdown : Shutdown) (event : ShutdownEvent) :
    (shutdown.happen event).2.channel.subscribers.length =
      shutdown.channel.subscribers.length + [event].count .subscribe := by
  cases event with
  | clone => rfl
  | subscribe => exact List.length_append
  | trigger => exact congrArg List.length shutdown.channel.subscribers_send
  | drop id => exact List.length_set
  | receive id => exact shutdown.channel.length_receive id

theorem length_subscribers_after (shutdown : Shutdown) (events : List ShutdownEvent) :
    (shutdown.after events).channel.subscribers.length =
      shutdown.channel.subscribers.length + events.count .subscribe := by
  induction events generalizing shutdown with
  | nil => rfl
  | cons event rest ih =>
    have regrouped : event :: rest = [event] ++ rest := rfl
    have further := ih (shutdown.happen event).2
    rw [length_subscribers_happen] at further
    rw [regrouped, List.count_append, ← Nat.add_assoc, ← further]
    rfl

theorem behind_of_spares {event : ShutdownEvent} (spares : event.Spares id)
    (holds : shutdown.channel.Behind id behind) :
    (shutdown.happen event).2.channel.Behind id behind := by
  obtain ⟨noTrigger, noReceive, noDrop⟩ := spares
  cases event with
  | clone => exact holds
  | subscribe => exact holds.subscribe
  | trigger => exact absurd rfl noTrigger
  | drop other => exact holds.drop_other fun same => noDrop (congrArg _ same)
  | receive other => exact holds.receive_other fun same => noReceive (congrArg _ same)

theorem behind_happen {event : ShutdownEvent} (holds : shutdown.channel.Behind id behind)
    (stays : event ≠ .drop id) :
    ∃ left, (shutdown.happen event).2.channel.Behind id left ∧
      behind + [event].count .trigger = covered (receptions id shutdown [event]) + left := by
  by_cases triggers : event = .trigger
  · subst triggers
    exact ⟨behind + 1, holds.send, by simp [receptions, covered]⟩
  · by_cases receives : event = .receive id
    · subst receives
      obtain ⟨-, left, nearer, split⟩ := holds.receive_self
      have told : covered (receptions id shutdown [.receive id]) =
          (shutdown.channel.receive id).1.covered := by simp [receptions, covered, receive]
      exact ⟨left, nearer, told ▸ split⟩
    · have spares : event.Spares id := ⟨triggers, receives, stays⟩
      refine ⟨behind, behind_of_spares spares holds, ?_⟩
      simp [receptions, covered, receives, triggers]

theorem behind_after (holds : shutdown.channel.Behind id behind) {events : List ShutdownEvent}
    (stays : .drop id ∉ events) :
    ∃ left, (shutdown.after events).channel.Behind id left ∧
      behind + events.count .trigger = covered (receptions id shutdown events) + left := by
  induction events generalizing shutdown behind with
  | nil => exact ⟨behind, holds, by simp [receptions, covered]⟩
  | cons event rest ih =>
    rw [List.mem_cons, not_or] at stays
    obtain ⟨next, moved, first⟩ := behind_happen holds (Ne.symm stays.1)
    obtain ⟨left, further, total⟩ := ih moved stays.2
    refine ⟨left, further, ?_⟩
    have regrouped : event :: rest = [event] ++ rest := rfl
    have same : shutdown.after [event] = (shutdown.happen event).2 := rfl
    rw [regrouped, List.count_append, receptions_append, covered_append, same]
    omega

theorem covered_of_absent {events : List ShutdownEvent}
    (absent : shutdown.channel.subscribers.length + events.count .subscribe ≤ id) :
    covered (receptions id shutdown events) = 0 := by
  induction events generalizing shutdown with
  | nil => rfl
  | cons event rest ih =>
    have regrouped : event :: rest = [event] ++ rest := rfl
    rw [regrouped, List.count_append, ← Nat.add_assoc, ← length_subscribers_happen] at absent
    have further := ih absent
    rw [receptions]
    split
    · have missing : shutdown.channel.subscribers[id]? = none := by
        rw [length_subscribers_happen] at absent
        rw [List.getElem?_eq_none_iff]
        omega
      have dropped : (shutdown.receive id).1 = .dropped := by
        simp [receive, Broadcast.receive, missing]
      rw [covered, List.map_cons, List.sum_cons, ← covered, further, dropped]
      rfl
    · exact further

theorem behind_of_subscribed {events since : List ShutdownEvent}
    (subscribed : Subscribed id events since) :
    ∃ left, (new.after events).channel.Behind id left ∧
      since.count .trigger = covered (receptions id new events) + left := by
  obtain ⟨before, rfl, number, stays⟩ := subscribed
  have length : (new.after before).channel.subscribers.length = id := by
    rw [length_subscribers_after, number]
    exact Nat.zero_add id
  have begins : (new.after before).subscribe.2.channel.Behind id 0 := by
    have number := (new.after before).channel.behind_subscribed
    rwa [length] at number
  obtain ⟨left, further, total⟩ := behind_after begins stays
  rw [after_append]
  refine ⟨left, further, ?_⟩
  have silent : covered (receptions id new before) = 0 := by
    apply covered_of_absent
    rw [number]
    exact (Nat.zero_add id).le
  have told : receptions id (new.after before) (.subscribe :: since) =
      receptions id (new.after before).subscribe.2 since := by simp [receptions, happen]
  rw [receptions_append, covered_append, silent, told]
  omega

theorem subscribed_concat_iff (events : List ShutdownEvent) (event : ShutdownEvent) :
    (∃ since, Subscribed id (events ++ [event]) since) ↔
      (∃ since, Subscribed id events since) ∧ event ≠ .drop id ∨
        event = .subscribe ∧ id = events.count .subscribe := by
  constructor
  · rintro ⟨since, before, split, number, stays⟩
    rcases List.eq_nil_or_concat since with rfl | ⟨earlier, last, rfl⟩
    · obtain ⟨rfl, single⟩ := List.append_inj' split rfl
      exact Or.inr ⟨List.singleton_inj.mp single, number.symm⟩
    · rw [List.concat_eq_append, ← List.cons_append, ← List.append_assoc] at split
      obtain ⟨rfl, single⟩ := List.append_inj' split rfl
      obtain rfl := List.singleton_inj.mp single
      rw [List.concat_eq_append, List.mem_append, not_or, List.mem_singleton] at stays
      exact Or.inl ⟨⟨earlier, before, rfl, number, stays.1⟩, fun drops => stays.2 drops.symm⟩
  · rintro (⟨⟨since, before, rfl, number, stays⟩, noDrop⟩ | ⟨rfl, rfl⟩)
    · refine ⟨since ++ [event], before, by simp, number, ?_⟩
      rw [List.mem_append, not_or, List.mem_singleton]
      exact ⟨stays, fun drops => noDrop drops.symm⟩
    · exact ⟨[], events, rfl, rfl, List.not_mem_nil⟩

theorem listens_happen_iff (shutdown : Shutdown) (event : ShutdownEvent) :
    (shutdown.happen event).2.channel.Listens id ↔
      shutdown.channel.Listens id ∧ event ≠ .drop id ∨
        event = .subscribe ∧ id = shutdown.channel.subscribers.length := by
  rw [channel_happen]
  cases event with
  | clone => simp [ShutdownEvent.onChannel]
  | subscribe =>
    simpa [ShutdownEvent.onChannel] using shutdown.channel.listens_subscribe_iff id
  | trigger => simp [ShutdownEvent.onChannel, Broadcast.Listens, Broadcast.subscribers_send]
  | drop other =>
    simpa [ShutdownEvent.onChannel, eq_comm] using shutdown.channel.listens_drop_iff other id
  | receive other =>
    simpa [ShutdownEvent.onChannel] using shutdown.channel.listens_receive_iff other id

theorem listens_after_iff (events : List ShutdownEvent) (id : Nat) :
    (new.after events).channel.Listens id ↔ ∃ since, Subscribed id events since := by
  induction events using List.reverseRecOn with
  | nil =>
    constructor
    · rintro ⟨passed, found⟩
      cases found
    · rintro ⟨since, before, split, -⟩
      simp at split
  | append_singleton events event ih =>
    have length : (new.after events).channel.subscribers.length = events.count .subscribe :=
      (length_subscribers_after new events).trans (Nat.zero_add _)
    rw [after_append, subscribed_concat_iff, ← ih, ← length]
    exact listens_happen_iff (new.after events) event

theorem receiverCount_after (events : List ShutdownEvent) :
    (new.after events).receiverCount = {id | ∃ since, Subscribed id events since}.ncard := by
  simp only [← listens_after_iff]
  exact (new.after events).channel.ncard_listens.symm

/-- What a subscriber with so many triggers to receive is told when it asks, and once more. -/
structure Tells (shutdown : Shutdown) (id unreceived : Nat) : Prop where
  waits : unreceived = 0 → (shutdown.happen (.receive id)).1 = .reception .empty
  receives : unreceived = 1 → (shutdown.happen (.receive id)).1 = .reception .received
  lags : 2 ≤ unreceived →
    (shutdown.happen (.receive id)).1 = .reception (.lagged (unreceived - 1)) ∧
      ∀ others, (∀ event ∈ others, event.Spares id) →
        (((shutdown.happen (.receive id)).2.after others).happen (.receive id)).1 =
          .reception .received

theorem answer_of_behind (holds : shutdown.channel.Behind id behind)
    (latest : shutdown.channel.capacity = 1) :
    (shutdown.happen (.receive id)).1 = .reception (.due 1 behind) := by
  rw [← latest, ← holds.receive_self.1]
  rfl

theorem behind_of_all_spare (holds : shutdown.channel.Behind id behind)
    {others : List ShutdownEvent} (spare : ∀ event ∈ others, event.Spares id) :
    (shutdown.after others).channel.Behind id behind := by
  induction others generalizing shutdown with
  | nil => exact holds
  | cons event rest ih =>
    obtain ⟨first, spare⟩ := List.forall_mem_cons.mp spare
    exact ih (behind_of_spares first holds) spare

theorem tells_of_behind (holds : shutdown.channel.Behind id behind)
    (latest : shutdown.channel.capacity = 1) : shutdown.Tells id behind where
  waits := by
    rintro rfl
    exact answer_of_behind holds latest
  receives := by
    rintro rfl
    exact answer_of_behind holds latest
  lags := by
    intro several
    have told := answer_of_behind holds latest
    have due : Reception.due 1 behind = .lagged (behind - 1) := by
      rw [Reception.due, if_neg (by omega), if_neg (by omega)]
    refine ⟨due ▸ told, fun others spare => ?_⟩
    obtain ⟨answer, left, nearer, split⟩ := holds.receive_self
    rw [answer, latest, due, Reception.covered] at split
    obtain rfl : left = 1 := by omega
    have state : (shutdown.happen (.receive id)).2.channel.Behind id 1 := nearer
    have stillLatest : ((shutdown.happen (.receive id)).2.after others).channel.capacity = 1 := by
      rw [capacity_after]
      exact (shutdown.channel.capacity_receive id).trans latest
    exact answer_of_behind (behind_of_all_spare state spare) stillLatest

end Shutdown

end TableServer
