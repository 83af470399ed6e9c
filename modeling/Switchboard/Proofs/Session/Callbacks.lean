import Mathlib.Logic.Basic
import Switchboard.Proofs.Session.History
import Switchboard.Proofs.Session.Operations

/-!
# Callbacks on record

`Followup.Plays` says which events a complete run of a follow-up records: the calls that it issues,
each sent, or refused, settled and followed by its own callback, and the outcomes that it delivers.
Nothing in it mentions a session, so that what a session records can be compared with what a
callback says.

`Step.records` accounts for everything that an action records: calls that are settled, each followed
by a complete run of the callback that its outcome picks, or else the one call that is issued.
`Called` is what this means for a record as a whole, and `Run.called` has it of every run.
-/

namespace Switchboard

variable {f next : Followup} {l l' events : List Event} {e : Event}

/-- What is recorded while a follow-up runs from its beginning to its end. -/
inductive Followup.Plays : Followup → List Event → Prop
  | done : Plays .done []
  | deliver (channel : Channel) (outcome : CallOutcome) :
      Plays (.deliver channel outcome) [.delivered channel outcome]
  /-- A call is issued and its request is sent. -/
  | sent {c : Call} {next : Followup} {events : List Event} (id : RequestId) (expiry : Option Nat)
      (rest : Plays next events) :
      Plays (.call c.spec c.onResult c.onError next)
        (.issued id c expiry :: c.spec.sent id :: events)
  /-- A call is issued, its request is refused, and its callback for the error runs. -/
  | refused {c : Call} {next : Followup} {events events' : List Event} (id : RequestId)
      (expiry : Option Nat) (reason : String)
      (callback : Plays (c.onError (.transport reason)) events) (rest : Plays next events') :
      Plays (.call c.spec c.onResult c.onError next)
        (.issued id c expiry :: .refused (.request (c.spec.request id)) reason ::
          .settled id c (.error (.transport reason)) :: (events ++ events'))

/-- What is recorded while the callback of a call runs: that for a result, or that for an error. -/
def Call.Plays (c : Call) : CallOutcome → List Event → Prop
  | .ok v, events => (c.onResult v).Plays events
  | .error error, events => (c.onError error).Plays events

/-- Calls that have ended one after another: each is settled, then its callback runs, and last the
peer may be told. -/
inductive Settled : List Event → Prop
  | nil : Settled []
  | untold {c : Call} {outcome : CallOutcome} {events rest : List Event} (id : RequestId)
      (callback : c.Plays outcome events) (settled : Settled rest) :
      Settled (.settled id c outcome :: (events ++ rest))
  | told {c : Call} {outcome : CallOutcome} {events rest : List Event} (id : RequestId)
      (callback : c.Plays outcome events) (l : Link) (reason : Option String)
      (settled : Settled rest) :
      Settled (.settled id c outcome ::
        (events ++ l.carry (Cancellation.toMessage ⟨id, reason⟩) :: rest))

theorem Settled.append (hl : Settled l) (hl' : Settled l') : Settled (l ++ l') := by
  induction hl with
  | nil => exact hl'
  | untold id callback _ ih =>
    rw [List.cons_append, List.append_assoc]
    exact .untold id callback ih
  | told id callback l reason _ ih =>
    rw [List.cons_append, List.append_assoc, List.cons_append]
    exact .told id callback l reason ih

/-! ### Settled calls have been called back -/

/-- **Wherever a call is settled on record, its callback comes next**: the one that the outcome
says, with this outcome, from its beginning to its end. -/
def Called (log : List Event) : Prop :=
  ∀ id c outcome after, .settled id c outcome :: after <:+ log →
    ∃ events, events <+: after ∧ c.Plays outcome events

theorem called_nil : Called [] := by
  intro id c outcome after hsuffix
  exact absurd (List.suffix_nil.1 hsuffix) nofun

/-- What is recorded later does not come in between. -/
theorem Called.append (hl : Called l) (hl' : Called l') : Called (l ++ l') := by
  intro id c outcome after hsuffix
  induction l with
  | nil => exact hl' id c outcome after hsuffix
  | cons e l ih =>
    rw [List.cons_append, List.suffix_cons_iff] at hsuffix
    rcases hsuffix with heq | hsuffix
    · obtain ⟨rfl, rfl⟩ := List.cons.inj heq
      obtain ⟨events, hprefix, hplays⟩ := hl id c outcome l (List.suffix_refl _)
      exact ⟨events, hprefix.trans (List.prefix_append _ _), hplays⟩
    · exact ih (fun id c outcome after h => hl id c outcome after (h.trans (List.suffix_cons e l)))
        hsuffix

/-- An event that settles no call. -/
theorem Called.cons (hl : Called l) (he : ∀ id, e.settlement? id = none) : Called (e :: l) := by
  intro id c outcome after hsuffix
  rcases List.suffix_cons_iff.1 hsuffix with heq | hsuffix
  · obtain ⟨rfl, rfl⟩ := List.cons.inj heq
    exact absurd (he id) (by simp [Event.settlement?])
  · exact hl id c outcome after hsuffix

/-- A call is settled, and its callback runs. -/
theorem Called.cons_settled {c : Call} {outcome : CallOutcome} (id : RequestId)
    (callback : c.Plays outcome events) (hl : Called (events ++ l)) :
    Called (.settled id c outcome :: (events ++ l)) := by
  intro id' c' outcome' after hsuffix
  rcases List.suffix_cons_iff.1 hsuffix with heq | hsuffix
  · cases heq
    exact ⟨events, List.prefix_append _ _, callback⟩
  · exact hl id' c' outcome' after hsuffix

theorem Followup.Plays.called (hplays : f.Plays events) : Called events := by
  induction hplays with
  | done => exact called_nil
  | deliver channel outcome => exact called_nil.cons fun _ => rfl
  | sent id expiry _ ih => exact (ih.cons fun _ => rfl).cons fun _ => rfl
  | @refused c _ _ _ id expiry reason callback _ ihCallback ihRest =>
    have hcalled : c.Plays (.error (.transport reason)) _ := callback
    have hsettled := Called.cons_settled id hcalled (ihCallback.append ihRest)
    exact (hsettled.cons fun _ => rfl).cons fun _ => rfl

theorem Call.Plays.called {c : Call} {outcome : CallOutcome} (h : c.Plays outcome events) :
    Called events := by
  cases outcome with
  | ok v => exact Followup.Plays.called h
  | error error => exact Followup.Plays.called h

theorem Settled.called (hl : Settled l) : Called l := by
  induction hl with
  | nil => exact called_nil
  | untold id callback _ ih => exact .cons_settled id callback (callback.called.append ih)
  | told id callback l reason _ ih =>
    have hnotice := ih.cons (e := l.carry (Cancellation.toMessage ⟨id, reason⟩)) fun _ => by
      cases l <;> rfl
    exact .cons_settled id callback (callback.called.append hnotice)

namespace Session

variable {s s' : Session} {id : RequestId}

/-! ### What a follow-up records -/

/-- **A follow-up records what it says.** -/
theorem follow_plays (f : Followup) (s : Session) :
    ∃ events, (s.follow f).log = s.log ++ events ∧ f.Plays events := by
  induction f generalizing s with
  | done => exact ⟨[], (List.append_nil _).symm, .done⟩
  | deliver channel outcome => exact ⟨_, rfl, .deliver channel outcome⟩
  | call spec onResult onError next _ ihError ihNext =>
    let c : Call := ⟨spec, onResult, onError⟩
    cases hl : (s.launch c).2.link with
    | accepting =>
      obtain ⟨events, hlog, hplays⟩ := ihNext (s.launch c).2
      rw [log_launch_of_accepting hl, List.append_assoc] at hlog
      rw [follow_call_of_accepting (c := c) hl]
      exact ⟨_, hlog, .sent (c := c) _ _ hplays⟩
    | refusing reason =>
      obtain ⟨events, hlog, hplays⟩ := ihError (.transport reason) (s.bounce c reason)
      obtain ⟨events', hlog', hplays'⟩ :=
        ihNext ((s.bounce c reason).follow (onError (.transport reason)))
      rw [hlog, log_bounce hl, List.append_assoc, List.append_assoc] at hlog'
      rw [follow_call_of_refusing (c := c) hl]
      have hevents := Followup.Plays.refused (c := c) s.ids.take.1 (s.expiry? spec) reason hplays
        hplays'
      exact ⟨_, hlog', hevents⟩

/-! ### What an action records -/

/-- From one session to a later one, calls have been settled one after another. -/
def Settles (s s' : Session) : Prop :=
  ∃ events, s'.log = s.log ++ events ∧ Settled events

theorem Settles.of_log_eq (hlog : s'.log = s.log) : Settles s s' :=
  ⟨[], by rw [hlog, List.append_nil], .nil⟩

theorem Settles.trans {s'' : Session} (h : Settles s s') (h' : Settles s' s'') : Settles s s'' := by
  obtain ⟨events, hlog, hsettled⟩ := h
  obtain ⟨events', hlog', hsettled'⟩ := h'
  exact ⟨_, by rw [hlog', hlog, List.append_assoc], hsettled.append hsettled'⟩

theorem resolve_plays (c : Call) (outcome : CallOutcome) (s : Session) :
    ∃ events, (s.follow (c.resolve outcome)).log = s.log ++ events ∧ c.Plays outcome events := by
  cases outcome with
  | ok v => exact follow_plays (c.onResult v) s
  | error error => exact follow_plays (c.onError error) s

/-- A call that is settled is called back. -/
theorem settles_conclude (s : Session) (id : RequestId) (c : Call) (outcome : CallOutcome) :
    Settles s ((s.conclude id c outcome).follow (c.resolve outcome)) := by
  obtain ⟨events, hlog, hplays⟩ := resolve_plays c outcome (s.conclude id c outcome)
  refine ⟨_, ?_, .untold id hplays .nil⟩
  rw [hlog, conclude, record, List.append_assoc, List.append_nil]
  rfl

theorem settles_settle (s : Session) (id : RequestId) (outcome : CallOutcome) :
    Settles s (s.settle id outcome).2 := by
  cases hp : s.pending.get? id with
  | none =>
    rw [settle_of_not_pending hp]
    exact .of_log_eq rfl
  | some c =>
    rw [settle_of_pending hp]
    exact settles_conclude (s.detach id) id c outcome

/-- A call that is aborted is called back, and then the peer is told. -/
theorem settles_abort (s : Session) (id : RequestId) (error : CallError) (reason : Option String) :
    Settles s (s.abort id error reason).2 := by
  cases hp : s.pending.get? id with
  | none =>
    rw [abort_of_not_pending hp]
    exact .of_log_eq rfl
  | some c =>
    let concluded := (s.detach id).conclude id c (.error error)
    let resolved := concluded.follow (c.resolve (.error error))
    obtain ⟨events, hlog, hplays⟩ := resolve_plays c (.error error) concluded
    refine ⟨_, ?_, .told id hplays resolved.turn.link reason .nil⟩
    have hhand : (resolved.hand (Cancellation.toMessage ⟨id, reason⟩)).log =
        resolved.log ++ [resolved.turn.link.carry (Cancellation.toMessage ⟨id, reason⟩)] := by
      rw [hand_eq]
    have hconcluded : concluded.log = s.log ++ [.settled id c (.error error)] := rfl
    rw [abort_of_pending hp, hhand, hlog, hconcluded, List.append_assoc, List.append_assoc]
    rfl

theorem settles_disconnect (s : Session) (entry : RequestId × Call) :
    Settles s (s.disconnect entry) :=
  settles_conclude { s with deadlines := s.deadlines.erase entry.1 } entry.1 entry.2
    (.error .disconnected)

theorem settles_foldl {α : Type} {f : Session → α → Session} (hf : ∀ s a, Settles s (f s a))
    (order : List α) (s : Session) : Settles s (order.foldl f s) := by
  induction order generalizing s with
  | nil => exact .of_log_eq rfl
  | cons a order ih => exact (hf s a).trans (ih _)

theorem settles_respond (s : Session) (r : Response) : Settles s (s.respond r) := by
  rw [respond]
  split <;> exact settles_settle s _ _

theorem settles_cancelled (s : Session) (c : Cancellation) : Settles s (s.cancelled c) := by
  rw [cancelled]
  split
  · exact .of_log_eq rfl
  · exact settles_settle s _ _

theorem settles_handle (s : Session) (m : Message) : Settles s (s.handle m).2 := by
  cases m with
  | request r => exact .of_log_eq rfl
  | response r => exact settles_respond s r
  | notification n =>
    cases hn : n.cancellation? with
    | none =>
      rw [handle_of_not_cancellation hn]
      exact .of_log_eq rfl
    | some c =>
      rw [handle_of_cancellation hn]
      exact settles_cancelled s c

end Session

/-- What an action may record: the run of the one call that it issues, or else calls that are
settled. -/
def Action.Records : Action → List Event → Prop
  | .issue c, events => (Followup.call c.spec c.onResult c.onError .done).Plays events
  | .call spec, events => ∃ channel,
      let c := Call.awaited spec channel
      (Followup.call c.spec c.onResult c.onError .done).Plays events
  | _, events => Settled events

theorem Action.Records.called {a : Action} (h : a.Records events) : Called events := by
  cases a with
  | issue c => exact Followup.Plays.called h
  | call spec =>
    obtain ⟨channel, hplays⟩ := h
    exact hplays.called
  | respond | cancelled | cancelCall | checkTimeouts | close | beginInbound | finishInbound
  | handle | wait | relink => exact Settled.called h

namespace Session

variable {s s' : Session} {a : Action}

/-- **Everything that an action records is accounted for.** -/
theorem Step.records (step : Step s a s') :
    ∃ events, s'.log = s.log ++ events ∧ a.Records events := by
  cases step with
  | issue c => exact follow_plays _ s
  | call spec =>
    obtain ⟨events, hlog, hplays⟩ := follow_plays _ { s with replies := s.replies.fresh.2 }
    exact ⟨events, hlog, s.replies.fresh.1, hplays⟩
  | respond r => exact settles_respond s r
  | cancelled c => exact settles_cancelled s c
  | cancelCall id reason => exact settles_abort s id _ _
  | checkTimeouts ho =>
    exact settles_foldl (fun s id => settles_abort s id .timeout _) _
      { s with deadlines := s.deadlines.notDue s.clock }
  | close ho => exact settles_foldl settles_disconnect _ { s with pending := .empty }
  | handle m => exact settles_handle s m
  | beginInbound id | finishInbound id handle | wait millis | relink link upcoming =>
    exact Settles.of_log_eq rfl

/-- **Every call that was settled in a run has been called back.** -/
theorem Run.called {config : SessionConfig} {h : List Moment} (run : Run { config } h s) :
    Called s.log := by
  induction run with
  | start => exact called_nil
  | step run step ih =>
    obtain ⟨events, hlog, hrecords⟩ := step.records
    rw [hlog]
    exact ih.append hrecords.called

end Session
end Switchboard
