import Switchboard.Proofs.Session.Callbacks
import Switchboard.Proofs.Session.Soundness

/-!
# The outcome of a call

After every run of a new session, whatever the order of its actions, each call has been settled with
what the first moment that ended it says, once, and its callback for this outcome has run; it is
still waiting if there was no such moment (`Run.settled_by_first_ending`). The deadline that a sweep
compares its instant with is the one that the call had from the start: `Run.issue_deadline`.
-/

namespace Switchboard

open History (issued issue? ending? elapsed)

namespace History

theorem elapsed_append (h h' : List Moment) : elapsed (h ++ h') = elapsed h + elapsed h' := by
  rw [elapsed, List.map_append, List.sum_append]
  rfl

/-- No time passes while a session records. -/
theorem elapsed_events (events : List Event) : elapsed (events.map .event) = 0 := by
  induction events with
  | nil => rfl
  | cons e events ih => exact (Nat.zero_add _).trans ih

/-- A call that was issued is in the history. -/
theorem mem_of_issue? {id : RequestId} {h : List Moment} {c : Call} {expiry : Option Nat}
    (hi : issue? id h = some (c, expiry)) : .event (.issued id c expiry) ∈ h := by
  obtain ⟨m, hm, he⟩ := List.exists_of_findSome?_eq_some hi
  unfold Moment.issue? at he
  split at he
  · split at he
    · rename_i hid
      obtain ⟨rfl, rfl⟩ := Prod.mk.inj (Option.some.inj he)
      exact hid ▸ hm
    · exact absurd he (by simp)
  · exact absurd he (by simp)

end History

namespace View.Sound

variable {id : RequestId} {v : View} {c : Call} {expiry : Option Nat}

theorem settlements (sound : v.Sound id) (hi : v.issue? = some (c, expiry)) :
    v.settlements = (v.ending?.map fun e => (c, e.outcome)).toList := by
  cases sound with
  | unissued => exact absurd hi (by simp)
  | waiting => rfl
  | ended =>
    obtain ⟨rfl, rfl⟩ := Prod.mk.inj (Option.some.inj hi)
    rfl

theorem pending (sound : v.Sound id) (hi : v.issue? = some (c, expiry)) :
    v.pending?.isSome = v.ending?.isNone := by
  cases sound with
  | unissued => exact absurd hi (by simp)
  | waiting => rfl
  | ended => rfl

theorem waiting? (sound : v.Sound id) (hi : v.issue? = some (c, expiry)) (he : v.ending? = none) :
    v.pending? = some c := by
  cases sound with
  | unissued => exact absurd hi nofun
  | waiting =>
    obtain ⟨rfl, rfl⟩ := Prod.mk.inj (Option.some.inj hi)
    rfl
  | ended => exact absurd he nofun

end View.Sound

namespace Session

variable {config : SessionConfig} {h : List Moment} {s s' : Session} {id : RequestId} {c : Call}
  {expiry : Option Nat}

/-- What an action does to the clock, and what it records. -/
structure Ticks (s s' : Session) (millis : Nat) : Prop where
  config : s'.config = s.config
  clock : s'.clock = s.clock + millis
  log : ∃ events, s'.log = s.log ++ events ∧ ∀ e ∈ events, Records s' e

theorem Onward.ticks (ho : Onward s s') : Ticks s s' 0 := by
  obtain ⟨events, hlog, hrec⟩ := ho.log
  exact ⟨ho.config, ho.clock, events, hlog, fun e he =>
    (hrec e he).congr ho.config.symm ho.clock.symm⟩

/-- An action that records nothing. -/
theorem ticks_of_log_eq {millis : Nat} (hconfig : s'.config = s.config)
    (hclock : s'.clock = s.clock + millis) (hlog : s'.log = s.log) : Ticks s s' millis :=
  ⟨hconfig, hclock, [], by rw [hlog, List.append_nil], nofun⟩

theorem ticks_respond (s : Session) (r : Response) : Ticks s (s.respond r) 0 := by
  rw [respond]
  split
  · exact (onward_settle s _ _).ticks
  · exact (onward_settle s _ _).ticks

theorem ticks_cancelled (s : Session) (c : Cancellation) : Ticks s (s.cancelled c) 0 := by
  rw [cancelled]
  split
  · exact ticks_of_log_eq rfl rfl rfl
  · exact (onward_settle s _ _).ticks

theorem elapsed_withdrawal (s : Session) (c : Cancellation) : elapsed (s.withdrawal c) = 0 := by
  rw [withdrawal]
  split <;> rfl

theorem ticks_handle (s : Session) (msg : Message) :
    Ticks s (s.handle msg).2 (elapsed (s.stimuli (.handle msg))) := by
  cases msg with
  | request r => exact ticks_of_log_eq rfl rfl rfl
  | response r => exact ticks_respond s r
  | notification n =>
    cases hn : n.cancellation? with
    | none =>
      simp only [handle, stimuli, hn]
      exact ticks_of_log_eq rfl rfl rfl
    | some c =>
      simp only [handle, stimuli, hn, Option.elim_some]
      rw [elapsed_withdrawal]
      exact ticks_cancelled s c

/-- Time passes by waiting only, and every deadline starts from the instant of its call. -/
theorem Step.ticks {a : Action} (step : Step s a s') : Ticks s s' (elapsed (s.stimuli a)) := by
  cases step with
  | issue c => exact (onward_follow _ s).ticks
  | call spec => exact (onward_call s spec).ticks
  | respond r => exact ticks_respond s r
  | cancelled c =>
    rw [stimuli, elapsed_withdrawal]
    exact ticks_cancelled s c
  | cancelCall id reason => exact (onward_abort s id _ _).ticks
  | checkTimeouts ho => exact (onward_expireAll s _).ticks
  | close ho =>
    obtain ⟨hconfig, hclock, hlog⟩ := (onward_disconnectAll s _).ticks
    exact ⟨hconfig, hclock, hlog⟩
  | handle msg => exact ticks_handle s msg
  | wait millis => exact ticks_of_log_eq rfl rfl rfl
  | beginInbound id | finishInbound id handle | relink link upcoming =>
    exact ticks_of_log_eq rfl rfl rfl

/-- The clock of a new session counts the time that has passed. -/
theorem Run.clock (run : Run { config } h s) : s.config = config ∧ s.clock = elapsed h := by
  induction run with
  | start => exact ⟨rfl, rfl⟩
  | step run step ih =>
    have t := step.ticks
    refine ⟨t.config.trans ih.1, ?_⟩
    rw [t.clock, ih.2, History.elapsed_append, History.elapsed_append, History.elapsed_events,
      Nat.add_zero]

/-- No stimulus issues a call. -/
theorem issue?_stimuli (s : Session) (a : Action) (id : RequestId) :
    issue? id (s.stimuli a) = none := by
  rw [issue?, List.findSome?_eq_none_iff]
  intro m hm
  have he := event?_of_mem_stimuli hm
  cases m with
  | event e => exact absurd he (by simp [Moment.event?])
  | answered | withdrawn | cancelled | swept | closed | waited => rfl

/-- **A call has its deadline from the start**: its own timeout after it was issued, or else that of
the session. -/
theorem Run.issue_deadline (run : Run { config } h s) (hi : issue? id h = some (c, expiry)) :
    ∃ h₁ h₂, h = h₁ ++ .event (.issued id c expiry) :: h₂ ∧
      expiry = (c.spec.timeout.or config.defaultTimeout).map (elapsed h₁ + ·) := by
  induction run with
  | start => exact absurd hi (by simp [issue?])
  | @step h s s' a run step ih =>
    rw [History.issue?_append, History.issue?_append] at hi
    cases hh : issue? id h with
    | some issue =>
      rw [hh] at hi
      obtain ⟨h₁, h₂, rfl, hx⟩ := ih (hh.trans hi)
      exact ⟨h₁, _, by rw [List.append_assoc, List.append_assoc]; rfl, hx⟩
    | none =>
      rw [hh, issue?_stimuli, Option.none_or, Option.none_or] at hi
      obtain ⟨hconfig, hclock, events, hlog, hrec⟩ := step.ticks
      rw [hlog, List.drop_left] at hi ⊢
      have hm : Event.issued id c expiry ∈ events := by
        simpa using History.mem_of_issue? hi
      obtain ⟨e₁, e₂, rfl⟩ := List.append_of_mem hm
      refine ⟨h ++ s.stimuli a ++ e₁.map .event, e₂.map .event, by simp, ?_⟩
      have hexp : expiry = s'.expiry? c.spec := hrec _ hm
      rw [hexp, expiry?, hconfig, hclock, run.clock.1, run.clock.2,
        History.elapsed_append, History.elapsed_append, History.elapsed_events, Nat.add_zero]

/-- A call that has been settled is on record, and the run of its callback comes next. -/
theorem Run.exists_callback {outcome : CallOutcome} (run : Run { config } h s)
    (hm : (c, outcome) ∈ s.settlements id) : ∃ before events after,
      s.log = before ++ .settled id c outcome :: (events ++ after) ∧ c.Plays outcome events := by
  obtain ⟨e, he, hsettled⟩ := List.mem_filterMap.1 hm
  obtain rfl := Event.settlement?_eq_some.1 hsettled
  obtain ⟨before, rest, hlog⟩ := List.append_of_mem he
  obtain ⟨events, ⟨after, rfl⟩, hplays⟩ := run.called id c outcome rest ⟨before, hlog.symm⟩
  exact ⟨before, events, after, hlog, hplays⟩

/-- **Every call is settled at most once, by the first moment that ends it.** Its callbacks have run
zero times as long as it waits, and once afterwards: on record the call is settled with what that
moment says, and everything that its callback for this outcome does comes next. Whatever action is
next, all that it records are such settlements, each with the run of its callback, or else the call
that it issues. -/
theorem Run.settled_by_first_ending (run : Run { config } h s) (few : Few h)
    (hi : issue? id h = some (c, expiry)) :
    s.settlements id = ((ending? id h).map fun e => (c, e.outcome)).toList ∧
      s.pending.contains id = (ending? id h).isNone ∧
      (∃ h₁ h₂, h = h₁ ++ .event (.issued id c expiry) :: h₂ ∧
        expiry = (c.spec.timeout.or config.defaultTimeout).map (elapsed h₁ + ·)) ∧
      (∀ e, ending? id h = some e → ∃ before events after,
        s.log = before ++ .settled id c e.outcome :: (events ++ after) ∧
          match e.outcome with
          | .ok v => (c.onResult v).Plays events
          | .error error => (c.onError error).Plays events) ∧
      ∀ a s', Step s a s' → ∃ events, s'.log = s.log ++ events ∧ a.Records events := by
  have sound := (run.sound few).views id
  have hset : s.settlements id = ((ending? id h).map fun e => (c, e.outcome)).toList :=
    sound.settlements hi
  refine ⟨hset, sound.pending hi, run.issue_deadline hi, fun e he => ?_,
    fun a s' step => step.records⟩
  have hm : (c, e.outcome) ∈ s.settlements id := by
    rw [hset, he]
    exact List.mem_singleton_self _
  obtain ⟨before, events, after, hlog, hplays⟩ := run.exists_callback hm
  refine ⟨before, events, after, hlog, ?_⟩
  cases ho : e.outcome <;> rw [ho] at hplays <;> exact hplays

/-- A call whose deadline has passed by the time of a sweep. It is issued again by its callback for
errors. -/
theorem settled_by_first_ending_swept :
    let again : CallSpec := { method := "ping", timeout := some 5 }
    ∃ h s, Run {} h s ∧ Few h ∧ issue? (.number 1) h = some (.retrying again 1, some 5) ∧
      s.settlements (.number 1) = [(.retrying again 1, .error .timeout)] ∧
      s.pending.contains (.number 1) = false ∧
      ∃ before events after, s.log =
          before ++ .settled (.number 1) (.retrying again 1) (.error .timeout) ::
            (events ++ after) ∧
        (Followup.call again (fun _ => .done) (fun _ => .done) .done).Plays events := by
  let again : CallSpec := { method := "ping", timeout := some 5 }
  have run : Run {} _ _ :=
    ((Run.start.step (.issue (.retrying again 1))).step (.wait 5)).step (step_checkTimeouts _)
  have few : 2 ≤ 2 ^ 64 := by decide
  obtain ⟨hset, hpending, -, hcallback, -⟩ :=
    @Run.settled_by_first_ending _ _ _ (.number 1) (.retrying again 1) (some 5) run few rfl
  exact ⟨_, _, run, few, rfl, hset, hpending, hcallback .expired rfl⟩

end Session
end Switchboard
