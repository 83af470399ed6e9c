import Switchboard.Proofs.Session.Replies
import Switchboard.Proofs.Session.Wire

/-!
# Awaited calls that are given up

Somebody may hold any number of futures and poll or drop each of them whenever they like, while the
session is used in all other ways: `CallFuture.Run`. Callbacks of other calls do as they like, but
they have no sender of a future's channel. Each future that waits does so for a call that it has
issued itself (`Run.owned`), and its channel holds what this call was settled with, so that a poll
tells what the session is known to say about an issued call (`await_tells`). `Run.safe_to_abandon`
says what a poll and a drop do at every moment of such a run.
-/

namespace Switchboard

open History (issue?)

namespace View.Sound

variable {id : RequestId} {v : View}

/-- The call that waits is the one that was issued. -/
theorem eq_of_pending (sound : v.Sound id) {c c' : Call} {expiry : Option Nat}
    (hi : v.issue? = some (c, expiry)) (hp : v.pending? = some c') : c' = c := by
  cases sound with
  | unissued => exact nomatch hi
  | waiting =>
    cases hi
    cases hp
    rfl
  | ended => exact nomatch hp

/-- A deadline is armed for a call that waits only. -/
theorem not_armed_of_not_pending (sound : v.Sound id) (hp : v.pending? = none) :
    v.expiry? = none := by
  cases sound with
  | unissued => rfl
  | waiting => exact nomatch hp
  | ended => rfl

end View.Sound

namespace Session

variable {s : Session} {spec : CallSpec} {id : RequestId}

/-! ### A call that somebody waits for -/

/-- The channel of the next call that somebody waits for. -/
def nextReply (s : Session) : Channel :=
  s.replies.fresh.1

/-- The next call that somebody waits for. -/
def nextAwaited (s : Session) (spec : CallSpec) : Call :=
  .awaited spec s.nextReply

/-- What is recorded behind the issue of a call that somebody waits for. -/
def echo (s : Session) (spec : CallSpec) : List Event :=
  match s.turn.link with
  | .accepting => [spec.sent s.ids.take.1]
  | .refusing reason =>
    [.refused (.request (spec.request s.ids.take.1)) reason,
      .settled s.ids.take.1 (s.nextAwaited spec) (.error (.transport reason)),
      .delivered s.nextReply (.error (.transport reason))]

theorem log_call (s : Session) (spec : CallSpec) :
    (s.call spec).2.2.log =
      s.log ++ .issued s.ids.take.1 (s.nextAwaited spec) (s.expiry? spec) :: s.echo spec := by
  let opened : Session := { s with replies := s.replies.fresh.2 }
  have hcall : (s.call spec).2.2 = opened.follow (.call (s.nextAwaited spec).spec
    (s.nextAwaited spec).onResult (s.nextAwaited spec).onError .done) := rfl
  have hlink : (opened.launch (s.nextAwaited spec)).2.link = s.turn.link := by
    rw [launch_eq, turn, turn]
    cases s.upcoming <;> rfl
  rw [hcall, echo]
  cases hl : s.turn.link with
  | accepting =>
    rw [follow_call_of_accepting (hlink.trans hl)]
    exact log_launch_of_accepting (hlink.trans hl)
  | refusing reason =>
    have hlog := log_bounce (hlink.trans hl)
    rw [follow_call_of_refusing (hlink.trans hl)]
    have hdeliver : ∀ s' : Session, ((s'.follow ((s.nextAwaited spec).onError
        (.transport reason))).follow .done).log =
          s'.log ++ [.delivered s.nextReply (.error (.transport reason))] := fun _ => rfl
    rw [hdeliver, hlog, List.append_assoc]
    rfl

/-- Whether the call is settled at once. -/
theorem settlements_call (hold : s.settlements s.ids.take.1 = []) (spec : CallSpec) :
    (s.call spec).2.2.settlements s.ids.take.1 =
      match s.turn.link with
      | .accepting => []
      | .refusing reason => [(s.nextAwaited spec, .error (.transport reason))] := by
  rw [settlements_append (s.log_call spec), hold, echo]
  cases s.turn.link <;> simp [Event.settlement?, CallSpec.sent, List.filterMap_cons]

theorem calls_call (s : Session) (spec : CallSpec) :
    (s.call spec).2.2.calls = s.calls ++ [s.ids.take.1] := by
  have hecho : (s.echo spec).filterMap Event.call? = [] := by
    rw [echo]
    split <;> rfl
  rw [calls_append (s.log_call spec), List.filterMap_cons, Event.call?, hecho]

theorem Step.length_calls_le {s' : Session} {a : Action} (step : Step s a s') :
    s.calls.length ≤ s'.calls.length := by
  obtain ⟨events, hlog, -⟩ := step.ticks.log
  rw [calls_append hlog, List.length_append]
  exact Nat.le_add_right _ _

end Session

namespace CallFuture

/-- A future that somebody has made for a call; it is gone once it has been dropped. -/
structure Held where
  spec : CallSpec
  /-- How often it has been polled. -/
  polls : Nat := 0
  /-- The calls that were issued while it was polled or dropped. -/
  issued : List RequestId := []
  future? : Option CallFuture

/-- The calls that a session has issued since it was another one. -/
def callsSince (s s' : Session) : List RequestId :=
  s'.calls.drop s.calls.length

/-- The future has been polled. -/
def Held.polled (held : Held) (f : CallFuture) (s : Session) : Held :=
  { held with
    polls := held.polls + 1
    issued := held.issued ++ callsSince s (f.poll s).2.2
    future? := some (f.poll s).2.1 }

/-- The future has been dropped. -/
def Held.dropped (held : Held) (f : CallFuture) (s : Session) : Held :=
  { held with
    issued := held.issued ++ callsSince s (f.drop s)
    future? := none }

/-- A session, and the futures for its calls: they are made, polled until they have finished, and
dropped in any order, and anything else is done with the session in between. -/
inductive Run (config : SessionConfig) : Session → List Held → Prop
  | start : Run config { config } []
  | make {s : Session} {fs : List Held} (run : Run config s fs) (spec : CallSpec) :
      Run config s (fs ++ [{ spec, future? := some (.unpolled spec) }])
  | poll {s : Session} {fs : List Held} (run : Run config s fs) {i : Nat} {held : Held}
      {f : CallFuture} (hi : fs[i]? = some held) (hf : held.future? = some f)
      (unfinished : f ≠ .finished) : Run config (f.poll s).2.2 (fs.set i (held.polled f s))
  | drop {s : Session} {fs : List Held} (run : Run config s fs) {i : Nat} {held : Held}
      {f : CallFuture} (hi : fs[i]? = some held) (hf : held.future? = some f) :
      Run config (f.drop s) (fs.set i (held.dropped f s))
  | use {s s' : Session} {fs : List Held} (run : Run config s fs) {a : Action}
      (step : Session.Step s a s') (silent : a.Silent) : Run config s' fs

/-- What a poll tells about a call: nothing as long as it waits, and else what it was settled
with. -/
def Tells (spec : CallSpec) (id : RequestId) (channel : Channel) :
    Option CallOutcome × CallFuture × Session → Prop
  | (none, f, s) =>
    f = .waiting id channel ∧ s.pending.get? id = some (.awaited spec channel) ∧
      s.settlements id = []
  | (some outcome, f, s) =>
    f = .finished ∧ s.pending.get? id = none ∧
      s.settlements id = [(.awaited spec channel, outcome)]

/-- A future issues its call at the first poll, and waits only for the call that it has issued, on
the channel of that call. -/
structure Held.Owned (h : List Moment) (held : Held) : Prop where
  once : held.issued.length = min held.polls 1
  unpolled : ∀ spec, held.future? = some (.unpolled spec) → spec = held.spec ∧ held.polls = 0
  waiting : ∀ id channel, held.future? = some (.waiting id channel) → held.issued = [id] ∧
    ∃ expiry, issue? id h = some (.awaited held.spec channel, expiry)

variable {config : SessionConfig} {h : List Moment} {s : Session} {fs : List Held} {held : Held}
  {i : Nat} {spec : CallSpec} {f : CallFuture} {id : RequestId} {channel : Channel}

theorem Held.Owned.append (ho : held.Owned h) (h' : List Moment) : held.Owned (h ++ h') := by
  refine ⟨ho.once, ho.unpolled, fun id channel hf => ?_⟩
  obtain ⟨hissued, expiry, hi⟩ := ho.waiting id channel hf
  exact ⟨hissued, expiry, by rw [History.issue?_append, hi, Option.some_or]⟩

theorem callsSince_self (s : Session) : callsSince s s = [] :=
  List.drop_length

theorem callsSince_eq {s s' : Session} {ids : List RequestId} (h : s'.calls = s.calls ++ ids) :
    callsSince s s' = ids := by
  rw [callsSince, h, List.drop_left]

theorem await_session (s : Session) (id : RequestId) (channel : Channel) :
    (await s id channel).2.2 = s := by
  rw [await]
  split <;> rfl

theorem poll_unpolled_session (s : Session) (spec : CallSpec) :
    ((unpolled spec).poll s).2.2 = (s.call spec).2.2 :=
  await_session _ _ _

theorem poll_waiting_session (s : Session) (id : RequestId) (channel : Channel) :
    ((waiting id channel).poll s).2.2 = s :=
  await_session s id channel

theorem await_future (s : Session) (id : RequestId) (channel : Channel) :
    (await s id channel).2.1 = .waiting id channel ∨ (await s id channel).2.1 = .finished := by
  rw [await]
  split
  · exact .inl rfl
  · exact .inr rfl

/-- **What an issued call's future tells** is what the session knows about the call: its channel
holds what the call was settled with. -/
theorem await_tells {expiry : Option Nat} (run : Session.Run { config } h s) (wired : s.Wired)
    (few : s.calls.length ≤ 2 ^ 64)
    (hi : issue? id h = some (.awaited spec channel, expiry)) :
    Tells spec id channel (await s id channel) := by
  have sound := (run.sound (run.few_iff.2 few)).views id
  have hm : (id, .awaited spec channel) ∈ s.entries :=
    List.mem_filterMap.mpr ⟨_, run.mem_log_of_issue? hi, rfl⟩
  have hholds := (wired few).holds hm
  have hissue : (Session.view h s id).issue? = some (.awaited spec channel, expiry) := hi
  have hsettled : (Session.view h s id).settlements = s.settlements id := rfl
  have hpending : (Session.view h s id).pending? = s.pending.get? id := rfl
  rw [Session.told, ← hsettled] at hholds
  generalize Session.view h s id = v at sound hissue hsettled hpending hholds
  cases sound with
  | unissued => cases hissue
  | waiting c expiry =>
    cases hissue
    simp only [await, hholds, OneShot.receive?]
    exact ⟨rfl, hpending.symm, hsettled.symm⟩
  | ended c expiry e left =>
    cases hissue
    simp only [await, hholds, OneShot.receive?]
    exact ⟨rfl, hpending.symm, hsettled.symm⟩

/-- The first poll issues a call that has not been issued before. -/
theorem call_run (run : Session.Run { config } h s) (few : s.calls.length < 2 ^ 64)
    (spec : CallSpec) :
    issue? s.ids.take.1 h = none ∧ (s.call spec).2.2.calls.length ≤ 2 ^ 64 ∧
      ∃ h' expiry, Session.Run { config } (h ++ h') (s.call spec).2.2 ∧
        issue? s.ids.take.1 (h ++ h') = some (s.nextAwaited spec, expiry) := by
  have hissued : History.issued h = s.calls := run.issued_eq
  have sound := run.sound (run.few_iff.2 few.le)
  have hfresh := sound.counted.fresh (hissued ▸ few)
  have run' := run.step (.call spec)
  rw [s.log_call, List.drop_left, Session.stimuli, List.append_nil] at run'
  refine ⟨hfresh, ?_, _, s.expiry? spec, run', ?_⟩
  · rw [s.calls_call, List.length_append]
    exact few
  · rw [History.issue?_append, hfresh, Option.none_or, List.map_cons, issue?,
      List.findSome?_cons, Moment.issue?, if_pos rfl]

/-! ### Dropping a future -/

/-- What the peer is told when nobody waits for a call any more. -/
def farewell (id : RequestId) : Message :=
  Cancellation.toMessage ⟨id, some "caller went away"⟩

/-- The call is cancelled, and its callback sends where nobody looks any more. -/
theorem drop_of_pending (hp : s.pending.get? id = some (.awaited spec channel)) :
    (waiting id channel).drop s =
      let outcome : CallOutcome := .error (.cancelled (some "caller went away"))
      (((s.detach id).conclude id (.awaited spec channel) outcome).deliver channel outcome).hand
        (farewell id) := by
  rw [drop, Session.cancelCall, Session.abort_of_pending hp]
  rfl

theorem drop_of_not_pending (hp : s.pending.get? id = none) :
    (waiting id channel).drop s = s := by
  rw [drop, Session.cancelCall, Session.abort_of_not_pending hp]

theorem log_drop (hp : s.pending.get? id = some (.awaited spec channel)) :
    ((waiting id channel).drop s).log = s.log ++
      [.settled id (.awaited spec channel) (.error (.cancelled (some "caller went away"))),
        .delivered channel (.error (.cancelled (some "caller went away"))),
        s.turn.link.carry (farewell id)] := by
  have hturn : ∀ replies log, ({ s.detach id with replies, log } : Session).turn.link =
      s.turn.link := fun replies log => by
    rw [Session.turn, Session.turn, Session.detach]
    cases s.upcoming <;> rfl
  rw [drop_of_pending hp, Session.hand_eq]
  simp only [Session.deliver, Session.conclude, Session.record, hturn, List.append_assoc,
    List.cons_append, List.nil_append]
  rfl

/-- **A dropped future leaves nothing of its call in the tables**, and tells the peer only if the
call was still waiting. -/
theorem drop_waiting {expiry : Option Nat} (run : Session.Run { config } h s)
    (few : s.calls.length ≤ 2 ^ 64) (hi : issue? id h = some (.awaited spec channel, expiry)) :
    ((waiting id channel).drop s).pending.get? id = none ∧
      ((waiting id channel).drop s).deadlines.get? id = none ∧
      (∀ id', id' ≠ id → ((waiting id channel).drop s).pending.get? id' = s.pending.get? id' ∧
        ((waiting id channel).drop s).deadlines.get? id' = s.deadlines.get? id') ∧
      ((waiting id channel).drop s).calls = s.calls ∧
      ((waiting id channel).drop s).sent = s.sent ++
        (if s.pending.contains id ∧ s.turn.link = .accepting then [farewell id] else []) ∧
      (s.pending.contains id = false → (waiting id channel).drop s = s) := by
  have sound := (run.sound (run.few_iff.2 few)).views id
  cases hp : s.pending.get? id with
  | none =>
    have hcontains : s.pending.contains id = false := by rw [Table.contains, hp]; rfl
    have hdeadline : s.deadlines.get? id = none :=
      Option.map_eq_none_iff.mp (sound.not_armed_of_not_pending hp)
    rw [drop_of_not_pending hp]
    exact ⟨hp, hdeadline, fun _ _ => ⟨rfl, rfl⟩, rfl, by simp [hcontains], fun _ => rfl⟩
  | some c =>
    obtain rfl : c = .awaited spec channel := sound.eq_of_pending hi hp
    have hcontains : s.pending.contains id = true := by rw [Table.contains, hp]; rfl
    refine ⟨?_, ?_, ?_, ?_, ?_, fun hnot => absurd hcontains (hnot ▸ Bool.false_ne_true)⟩
    · rw [drop_of_pending hp, Session.hand_eq]
      exact (Table.get?_erase _ _ _).trans (if_pos rfl)
    · rw [drop_of_pending hp, Session.hand_eq]
      exact (Table.get?_erase _ _ _).trans (if_pos rfl)
    · intro id' hne
      rw [drop_of_pending hp, Session.hand_eq]
      exact ⟨(Table.get?_erase _ _ _).trans (if_neg hne),
        (Table.get?_erase _ _ _).trans (if_neg hne)⟩
    · rw [Session.calls, log_drop hp, List.filterMap_append]
      cases s.turn.link <;> simp [List.filterMap_cons, Event.call?, Link.carry, Session.calls]
    · rw [Session.sent, log_drop hp, List.filterMap_append]
      cases s.turn.link <;>
        simp [List.filterMap_cons, Event.sent?, Link.carry, Session.sent, hcontains]

/-- **A refused request is told by the first poll**, an accepted one by none. -/
theorem first_poll (run : Session.Run { config } h s) (wired : s.Wired)
    (few : s.calls.length < 2 ^ 64) :
    ((unpolled spec).poll s).1 =
      match s.turn.link with
      | .accepting => none
      | .refusing reason => some (.error (.transport reason)) := by
  obtain ⟨hfresh, few', h', expiry, run', hi⟩ := call_run run few spec
  have tells := await_tells run' (wired.call spec) few' hi
  have hpoll : (unpolled spec).poll s = await (s.call spec).2.2 s.ids.take.1 s.nextReply := rfl
  have hold : s.settlements s.ids.take.1 = [] := by
    have hv := (run.sound (run.few_iff.2 few.le)).views s.ids.take.1
    exact congrArg View.settlements (Session.view_of_unissued hv hfresh)
  have hset := Session.settlements_call hold spec
  rw [hpoll]
  rw [await] at tells ⊢
  cases hl : s.turn.link with
  | accepting =>
    rw [hl] at hset
    split at tells
    · rfl
    · exact nomatch tells.2.2.symm.trans hset
  | refusing reason =>
    rw [hl] at hset
    split at tells
    · exact nomatch tells.2.2.symm.trans hset
    · have heq := tells.2.2.symm.trans hset
      rw [(Prod.mk.inj (List.cons.inj heq).1).2]

/-! ### Every future has its own call -/

theorem owned_append (hfs : ∀ held ∈ fs, held.Owned h) (h' : List Moment) :
    ∀ held ∈ fs, held.Owned (h ++ h') :=
  fun held hmem => (hfs held hmem).append h'

theorem owned_set (hfs : ∀ held ∈ fs, held.Owned h) (hheld : held.Owned h) :
    ∀ held' ∈ fs.set i held, held'.Owned h := by
  intro held' hmem
  rcases List.mem_or_eq_of_mem_set hmem with hmem | rfl
  · exact hfs held' hmem
  · exact hheld

/-- A future that has been polled awaits the one call that it has issued. -/
theorem Held.Owned.of_await {expiry : Option Nat} (hpolls : 0 < held.polls)
    (hissued : held.issued = [id])
    (hi : issue? id h = some (.awaited held.spec channel, expiry))
    (hf : held.future? = some (await s id channel).2.1) : held.Owned h := by
  have honce : held.issued.length = min held.polls 1 := by
    rw [hissued, Nat.min_eq_right hpolls]
    rfl
  rcases await_future s id channel with hc | hc
  · rw [hc] at hf
    refine ⟨honce, fun spec hf' => ?_, fun id' channel' hf' => ?_⟩
    · exact nomatch hf.symm.trans hf'
    · cases hf.symm.trans hf'
      exact ⟨hissued, expiry, hi⟩
  · rw [hc] at hf
    refine ⟨honce, fun spec hf' => ?_, fun id' channel' hf' => ?_⟩
    · exact nomatch hf.symm.trans hf'
    · exact nomatch hf.symm.trans hf'

/-- The first poll issues the call. -/
theorem Held.Owned.first_poll {h' : List Moment} {expiry : Option Nat} (ho : held.Owned h)
    (hf : held.future? = some (.unpolled spec))
    (hi : issue? s.ids.take.1 (h ++ h') = some (s.nextAwaited spec, expiry)) :
    (held.polled (.unpolled spec) s).Owned (h ++ h') := by
  obtain ⟨rfl, hpolls⟩ := ho.unpolled spec hf
  have hnone : held.issued = [] := List.eq_nil_of_length_eq_zero (by rw [ho.once, hpolls]; rfl)
  refine .of_await (Nat.succ_pos _) ?_ hi rfl
  rw [polled, poll_unpolled_session, callsSince_eq (s.calls_call held.spec), hnone]
  rfl

/-- A later poll issues nothing. -/
theorem Held.Owned.later_poll (ho : held.Owned h)
    (hf : held.future? = some (.waiting id channel)) :
    (held.polled (.waiting id channel) s).Owned h := by
  obtain ⟨hown, expiry, hi⟩ := ho.waiting id channel hf
  refine .of_await (Nat.succ_pos _) ?_ hi rfl
  rw [polled, poll_waiting_session, callsSince_self, hown]
  rfl

/-- A drop issues nothing. -/
theorem Held.Owned.dropped (ho : held.Owned h) (hcalls : (f.drop s).calls = s.calls) :
    (held.dropped f s).Owned h := by
  have hissued : (held.dropped f s).issued = held.issued := by
    rw [Held.dropped, callsSince_eq (hcalls.trans (List.append_nil _).symm)]
    exact List.append_nil _
  exact ⟨hissued ▸ ho.once, nofun, nofun⟩

/-- **Every future that waits has issued its call itself**, and nothing but the callbacks of these
calls sends on their channels. -/
theorem Run.owned (run : Run config s fs) (few : s.calls.length ≤ 2 ^ 64) :
    ∃ h, Session.Run { config } h s ∧ s.Wired ∧ ∀ held ∈ fs, held.Owned h := by
  -- Calls are only ever added, so there was room for them in every session before as well.
  induction run with
  | start => exact ⟨[], .start, Session.wired_new config, nofun⟩
  | make run spec ih =>
    obtain ⟨h, hrun, hwired, hfs⟩ := ih few
    refine ⟨h, hrun, hwired, fun held hmem => ?_⟩
    rcases List.mem_append.mp hmem with hmem | hmem
    · exact hfs held hmem
    · cases List.mem_singleton.mp hmem
      exact ⟨rfl, fun spec' hf => ⟨by cases hf; rfl, rfl⟩, nofun⟩
  | @poll s fs run i held f hi hf unfinished ih =>
    have hmem := List.mem_of_getElem? hi
    cases f with
    | unpolled spec =>
      rw [poll_unpolled_session] at few ⊢
      rw [s.calls_call, List.length_append, List.length_singleton] at few
      obtain ⟨h, hrun, hwired, hfs⟩ := ih (Nat.le_of_succ_le few)
      obtain ⟨-, -, h', expiry, hrun', hissue⟩ := call_run hrun few spec
      exact ⟨h ++ h', hrun', hwired.call spec,
        owned_set (owned_append hfs h') ((hfs _ hmem).first_poll hf hissue)⟩
    | waiting id channel =>
      rw [poll_waiting_session] at few ⊢
      obtain ⟨h, hrun, hwired, hfs⟩ := ih few
      exact ⟨h, hrun, hwired, owned_set hfs ((hfs _ hmem).later_poll hf)⟩
    | finished => exact absurd rfl unfinished
  | @drop s fs run i held f hi hf ih =>
    have hmem := List.mem_of_getElem? hi
    cases f with
    | unpolled | finished =>
      obtain ⟨h, hrun, hwired, hfs⟩ := ih few
      exact ⟨h, hrun, hwired, owned_set hfs ((hfs _ hmem).dropped rfl)⟩
    | waiting id channel =>
      -- To drop the future is to cancel its call, which is a step of the session.
      have step : Session.Step s _ _ := .cancelCall id (some "caller went away")
      have few' := Nat.le_trans step.length_calls_le few
      obtain ⟨h, hrun, hwired, hfs⟩ := ih few'
      obtain ⟨-, expiry, hissue⟩ := (hfs _ hmem).waiting id channel hf
      have hcalls := (drop_waiting hrun few' hissue).2.2.2.1
      have hrun' := hrun.step step
      rw [List.append_assoc] at hrun'
      exact ⟨_, hrun', step.wired trivial hwired,
        owned_set (owned_append hfs _) (((hfs _ hmem).dropped hcalls).append _)⟩
  | use run step silent ih =>
    obtain ⟨h, hrun, hwired, hfs⟩ := ih (Nat.le_trans step.length_calls_le few)
    have hrun' := hrun.step step
    rw [List.append_assoc] at hrun'
    exact ⟨_, hrun', step.wired silent hwired, owned_append hfs _⟩

/-- **A future may be given up at every moment.** It issues no call before it is polled, and one
call at its first poll. As long as the call is on the table a poll tells nothing, and afterwards
what the call was settled with, which for a refused request is the case at once. Dropping the future
takes the call off both tables, and tells the peer if the call was still waiting and the transport
takes the message; a future whose call has been settled is dropped without a trace. -/
theorem Run.safe_to_abandon (run : Run config s fs) (few : s.calls.length < 2 ^ 64)
    (hmem : held ∈ fs) :
    (held.polls = 0 → held.issued = []) ∧ (0 < held.polls → ∃ id, held.issued = [id]) ∧
    (∀ spec, held.future? = some (.unpolled spec) →
      spec = held.spec ∧ (unpolled spec).drop s = s ∧
      ∃ id channel, id ∉ s.calls ∧ ((unpolled spec).poll s).2.2.calls = s.calls ++ [id] ∧
        Tells spec id channel ((unpolled spec).poll s) ∧
        ((unpolled spec).poll s).1 =
          match s.turn.link with
          | .accepting => none
          | .refusing reason => some (.error (.transport reason))) ∧
    (∀ id channel, held.future? = some (.waiting id channel) →
      held.issued = [id] ∧ ((waiting id channel).poll s).2.2 = s ∧
      Tells held.spec id channel ((waiting id channel).poll s) ∧
      ((waiting id channel).drop s).pending.get? id = none ∧
      ((waiting id channel).drop s).deadlines.get? id = none ∧
      (∀ id', id' ≠ id →
        ((waiting id channel).drop s).pending.get? id' = s.pending.get? id' ∧
        ((waiting id channel).drop s).deadlines.get? id' = s.deadlines.get? id') ∧
      ((waiting id channel).drop s).calls = s.calls ∧
      ((waiting id channel).drop s).sent = s.sent ++
        (if s.pending.contains id ∧ s.turn.link = .accepting then [farewell id] else []) ∧
      (s.pending.contains id = false → (waiting id channel).drop s = s)) ∧
    finished.drop s = s := by
  obtain ⟨h, hrun, hwired, hfs⟩ := run.owned few.le
  have ho := hfs held hmem
  refine ⟨fun hpolls => ?_, fun hpolls => ?_, fun spec hf => ?_, fun id channel hf => ?_, rfl⟩
  · exact List.eq_nil_of_length_eq_zero (by rw [ho.once, hpolls]; rfl)
  · exact List.length_eq_one_iff.mp (by rw [ho.once, Nat.min_eq_right hpolls])
  · obtain ⟨rfl, -⟩ := ho.unpolled spec hf
    obtain ⟨hfresh, few', h', expiry, hrun', hi⟩ := call_run hrun few held.spec
    refine ⟨rfl, rfl, s.ids.take.1, s.nextReply, fun hissued => ?_, ?_,
      await_tells hrun' (hwired.call _) few' hi, first_poll hrun hwired few⟩
    · rw [← hrun.issued_eq] at hissued
      exact History.mem_issued.mp hissued hfresh
    · rw [poll_unpolled_session, s.calls_call]
  · obtain ⟨hown, expiry, hi⟩ := ho.waiting id channel hf
    exact ⟨hown, await_session s id channel, await_tells hrun hwired few.le hi,
      drop_waiting hrun few.le hi⟩

/-- A future that has been polled once. It may be dropped while its call waits; when the call has
been answered, its channel holds the answer. -/
theorem safe_to_abandon_waiting :
    ∃ s s' fs, ∃ held : Held, Run {} s fs ∧ Run {} s' fs ∧ s.calls.length < 2 ^ 64 ∧
      s'.calls.length < 2 ^ 64 ∧ held ∈ fs ∧
      held.future? = some (.waiting (.number 1) ⟨0⟩) ∧
      ((waiting (.number 1) ⟨0⟩).drop s).sent =
        [.request ⟨.number 1, "ping", none⟩, farewell (.number 1)] ∧
      s'.settlements (.number 1) = [(.awaited { method := "ping" } ⟨0⟩, .ok .null)] ∧
      Tells { method := "ping" } (.number 1) ⟨0⟩ ((waiting (.number 1) ⟨0⟩).poll s') := by
  let spec : CallSpec := { method := "ping" }
  let held : Held := Held.polled { spec, future? := some (.unpolled spec) } (.unpolled spec) {}
  have run : Run {} _ [held] := (Run.start.make spec).poll (i := 0) rfl rfl nofun
  have answered : Run {} _ [held] := run.use (.respond ⟨.number 1, .result .null⟩) trivial
  have few : 1 < 2 ^ 64 := by decide
  have hmem : held ∈ [held] := List.mem_singleton.mpr rfl
  have hwaiting := (run.safe_to_abandon few hmem).2.2.2.1 (.number 1) ⟨0⟩ rfl
  have hanswered := (answered.safe_to_abandon few hmem).2.2.2.1 (.number 1) ⟨0⟩ rfl
  exact ⟨_, _, _, held, run, answered, few, few, hmem, rfl, hwaiting.2.2.2.2.2.2.2.1, rfl,
    hanswered.2.2.1⟩

end CallFuture
end Switchboard
