import Mathlib.Data.List.Nodup
import Switchboard.Proofs.Session.Traffic

/-!
# Where outcomes are waited for

The sender of a channel is in nobody's hands but those of the two callbacks of the call that it was
made for. So the callbacks of all other calls are silent: they deliver nothing, and neither do those
of the calls that they issue (`Action.Silent`). Each channel then belongs to one call, and it holds
what this call was settled with, or nothing if it was not: `Wiring`, which every silent action keeps
(`Step.wired`).

This holds as long as no identifier is used again. A call that is displaced by another one under its
identifier ends without an outcome, and its sender is gone.
-/

namespace Switchboard

/-! ### Calls that nobody waits for -/

/-- A follow-up that delivers nothing, and whose calls nobody waits for. -/
inductive Followup.Silent : Followup → Prop
  | done : Silent .done
  | call {spec : CallSpec} {onResult : Json → Followup} {onError : CallError → Followup}
      {next : Followup} (reply : spec.reply = none) (result : ∀ v, Silent (onResult v))
      (error : ∀ e, Silent (onError e)) (rest : Silent next) :
      Silent (.call spec onResult onError next)

/-- A call that nobody waits for, with silent callbacks. -/
structure Call.Silent (c : Call) : Prop where
  reply : c.spec.reply = none
  onResult : ∀ v, (c.onResult v).Silent
  onError : ∀ e, (c.onError e).Silent

theorem Call.Silent.resolve {c : Call} (hc : c.Silent) (outcome : CallOutcome) :
    (c.resolve outcome).Silent := by
  cases outcome with
  | ok v => exact hc.onResult v
  | error e => exact hc.onError e

/-- Nobody waits for a call that is issued other than by `Session.call`. -/
def Action.Silent : Action → Prop
  | .issue c => c.Silent
  | .call _ | .respond _ | .cancelled _ | .cancelCall _ _ | .checkTimeouts | .close
  | .beginInbound _ | .finishInbound _ _ | .handle _ | .wait _ | .relink _ _ => True

/-- The call that an event issues, with its identifier. -/
def Event.entry? : Event → Option (RequestId × Call)
  | .issued id c _ => some (id, c)
  | .sent _ | .refused _ _ | .settled _ _ _ | .delivered _ _ => none

namespace Session

variable {s s' : Session} {id : RequestId} {c : Call} {events : List Event}

/-! ### What is on record -/

/-- The calls that have been issued, each with its identifier. -/
def entries (s : Session) : List (RequestId × Call) :=
  s.log.filterMap Event.entry?

theorem map_fst_entries (s : Session) : s.entries.map Prod.fst = s.calls := by
  rw [entries, List.map_filterMap, calls]
  congr 1
  funext e
  cases e <;> rfl

theorem mem_calls_of_mem_entries (hm : (id, c) ∈ s.entries) : id ∈ s.calls :=
  s.map_fst_entries ▸ List.mem_map_of_mem hm

theorem entries_append (hlog : s'.log = s.log ++ events) :
    s'.entries = s.entries ++ events.filterMap Event.entry? := by
  rw [entries, hlog, List.filterMap_append]
  rfl

theorem calls_append (hlog : s'.log = s.log ++ events) :
    s'.calls = s.calls ++ events.filterMap Event.call? := by
  rw [calls, hlog, List.filterMap_append]
  rfl

theorem Onward.entries_subset (ho : Onward s s') : s.entries ⊆ s'.entries := by
  obtain ⟨events, hlog, -⟩ := ho.log
  rw [entries_append hlog]
  exact List.subset_append_left _ _

theorem Onward.length_calls_le (ho : Onward s s') : s.calls.length ≤ s'.calls.length := by
  obtain ⟨events, hlog, -⟩ := ho.log
  rw [calls_append hlog, List.length_append]
  exact Nat.le_add_right _ _

theorem log_conclude (s : Session) (id : RequestId) (c : Call) (outcome : CallOutcome) :
    (s.conclude id c outcome).log = s.log ++ [.settled id c outcome] := rfl

theorem log_deliver (s : Session) (channel : Channel) (outcome : CallOutcome) :
    (s.deliver channel outcome).log = s.log ++ [.delivered channel outcome] := rfl

theorem entries_conclude (s : Session) (id : RequestId) (c : Call) (outcome : CallOutcome) :
    (s.conclude id c outcome).entries = s.entries :=
  (entries_append (log_conclude s id c outcome)).trans (List.append_nil _)

theorem entries_deliver (s : Session) (channel : Channel) (outcome : CallOutcome) :
    (s.deliver channel outcome).entries = s.entries :=
  (entries_append (log_deliver s channel outcome)).trans (List.append_nil _)

theorem settlements_deliver (s : Session) (channel : Channel) (outcome : CallOutcome) :
    (s.deliver channel outcome).settlements id = s.settlements id :=
  (settlements_append (log_deliver s channel outcome) id).trans (List.append_nil _)

/-! A call that is launched is issued, and its request is handed over. -/

theorem log_launch (s : Session) (c : Call) :
    (s.launch c).2.log = s.log ++ [.issued s.ids.take.1 c (s.expiry? c.spec),
      s.turn.link.carry (.request (c.spec.request s.ids.take.1))] := by
  rw [launch_eq]

theorem entries_launch (s : Session) (c : Call) :
    (s.launch c).2.entries = s.entries ++ [(s.ids.take.1, c)] := by
  rw [entries_append (log_launch s c)]
  cases s.turn.link <;> rfl

theorem calls_launch (s : Session) (c : Call) :
    (s.launch c).2.calls = s.calls ++ [s.ids.take.1] := by
  rw [← map_fst_entries, entries_launch, List.map_append, map_fst_entries]
  rfl

theorem settlements_launch (s : Session) (c : Call) (id : RequestId) :
    (s.launch c).2.settlements id = s.settlements id := by
  rw [settlements_append (log_launch s c)]
  cases s.turn.link <;> exact List.append_nil _

/-- What a call has been settled with, as a channel holds it. -/
def told (s : Session) (id : RequestId) : OneShot CallOutcome :=
  match s.settlements id with
  | [] => .empty
  | (_, outcome) :: _ => .sent outcome

theorem told_conclude_self (s : Session) (id : RequestId) (c : Call) (outcome : CallOutcome) :
    (s.conclude id c outcome).told id = (s.told id).send outcome := by
  have hset : (s.conclude id c outcome).settlements id = s.settlements id ++ [(c, outcome)] := by
    rw [settlements_append (log_conclude s id c outcome)]
    simp [Event.settlement?]
  rw [told, told, hset]
  cases s.settlements id <;> rfl

theorem settlements_conclude_of_ne {id' : RequestId} (hne : id' ≠ id) (c : Call)
    (outcome : CallOutcome) :
    (s.conclude id c outcome).settlements id' = s.settlements id' := by
  rw [settlements_append (log_conclude s id c outcome)]
  simp [Event.settlement?, Ne.symm hne]

/-! ### The invariant -/

/-- Which call each channel belongs to, and what it holds. -/
structure Wiring (s : Session) : Prop where
  calls : s.calls = (List.range s.calls.length).map IdSource.nth
  ids : s.ids = .after s.calls.length
  pending : ∀ {id c}, s.pending.get? id = some c → (id, c) ∈ s.entries
  settled : ∀ {id}, s.settlements id ≠ [] → id ∈ s.calls
  kinds : ∀ {id c}, (id, c) ∈ s.entries →
    c.Silent ∨ ∃ spec channel, c = .awaited spec channel ∧ s.replies.Has channel
  own : ∀ {id id' spec spec' channel}, (id, .awaited spec channel) ∈ s.entries →
    (id', .awaited spec' channel) ∈ s.entries → id = id'
  holds : ∀ {id spec channel}, (id, .awaited spec channel) ∈ s.entries →
    s.replies.get channel = s.told id

/-- The channels are as they should be, unless too many calls have been issued. -/
def Wired (s : Session) : Prop :=
  s.calls.length ≤ 2 ^ 64 → Wiring s

/-- A call has one identifier. -/
theorem Wiring.eq_of_mem (hw : Wiring s) (few : s.calls.length ≤ 2 ^ 64) {c' : Call}
    (hm : (id, c) ∈ s.entries) (hm' : (id, c') ∈ s.entries) : c = c' := by
  have hnodup : (s.entries.map Prod.fst).Nodup := by
    rw [map_fst_entries, hw.calls]
    exact IdSource.nodup_nth few
  exact congrArg Prod.snd (List.inj_on_of_nodup_map hnodup hm hm' rfl)

theorem not_silent_awaited (spec : CallSpec) (channel : Channel) :
    ¬ (Call.awaited spec channel).Silent :=
  fun hs => nomatch hs.reply

theorem channel_inj {spec spec' : CallSpec} {channel channel' : Channel}
    (heq : Call.awaited spec channel = .awaited spec' channel') : channel = channel' :=
  Option.some.inj (congrArg (fun c => c.spec.reply) heq)

/-- The channel of an awaited call has been made. -/
theorem Wiring.has (hw : Wiring s) {spec : CallSpec} {channel : Channel}
    (hm : (id, .awaited spec channel) ∈ s.entries) : s.replies.Has channel := by
  rcases hw.kinds hm with silent | ⟨spec', channel', heq, hhas⟩
  · exact absurd silent (not_silent_awaited spec channel)
  · obtain rfl := channel_inj heq
    exact hhas

/-- What issues no call keeps the invariant if it says of each call what its channel holds. -/
theorem Wiring.of_entries_eq (hw : Wiring s) (hentries : s'.entries = s.entries)
    (hids : s'.ids = s.ids)
    (hpending : ∀ id c, s'.pending.get? id = some c → s.pending.get? id = some c)
    (hhas : ∀ channel, s.replies.Has channel → s'.replies.Has channel)
    (hsettled : ∀ id, s'.settlements id ≠ [] → id ∈ s.calls)
    (hholds : ∀ id spec channel, (id, .awaited spec channel) ∈ s.entries →
      s'.replies.get channel = s'.told id) : Wiring s' := by
  have hcalls : s'.calls = s.calls := by rw [← map_fst_entries, ← map_fst_entries, hentries]
  constructor
  case calls =>
    rw [hcalls]
    exact hw.calls
  case ids =>
    rw [hcalls, hids]
    exact hw.ids
  case pending =>
    intro id c hp
    rw [hentries]
    exact hw.pending (hpending id c hp)
  case settled =>
    intro id hne
    rw [hcalls]
    exact hsettled id hne
  case kinds =>
    intro id c hm
    rcases hw.kinds (hentries ▸ hm) with silent | ⟨spec, channel, hc, hchannel⟩
    · exact .inl silent
    · exact .inr ⟨spec, channel, hc, hhas channel hchannel⟩
  case own =>
    intro id id' spec spec' channel hm hm'
    exact hw.own (hentries ▸ hm) (hentries ▸ hm')
  case holds =>
    intro id spec channel hm
    exact hholds id spec channel (hentries ▸ hm)

/-- What settles no call either, and leaves the channels alone. -/
theorem Wiring.congr (hw : Wiring s) (hentries : s'.entries = s.entries)
    (hset : ∀ id, s'.settlements id = s.settlements id) (hids : s'.ids = s.ids)
    (hreplies : s'.replies = s.replies)
    (hpending : ∀ id c, s'.pending.get? id = some c → s.pending.get? id = some c) :
    Wiring s' := by
  refine hw.of_entries_eq hentries hids hpending (fun channel h => hreplies ▸ h)
    (fun id hne => hw.settled (hset id ▸ hne)) fun id spec channel hm => ?_
  rw [hreplies, told, hset]
  exact hw.holds hm

theorem Wired.congr (hw : Wired s) (hlog : s'.log = s.log) (hids : s'.ids = s.ids)
    (hreplies : s'.replies = s.replies)
    (hpending : ∀ id c, s'.pending.get? id = some c → s.pending.get? id = some c) :
    Wired s' := by
  intro few
  have few' : s.calls.length ≤ 2 ^ 64 := by
    rw [calls, hlog] at few
    exact few
  refine (hw few').congr ?_ (fun id => ?_) hids hreplies hpending
  · rw [entries, hlog]
    rfl
  · rw [settlements, hlog]
    rfl

/-! ### Calls that are issued -/

/-- A call may be issued: nobody waits for it, or its channel is new. -/
def Ready (s : Session) (c : Call) : Prop :=
  c.Silent ∨ ∃ spec channel, c = .awaited spec channel ∧ s.replies.Has channel ∧
    s.replies.get channel = .empty ∧ ∀ id spec', (id, .awaited spec' channel) ∉ s.entries

theorem Ready.of_awaited {spec : CallSpec} {channel : Channel}
    (hc : s.Ready (.awaited spec channel)) :
    s.replies.get channel = .empty ∧ ∀ id spec', (id, .awaited spec' channel) ∉ s.entries := by
  rcases hc with silent | ⟨spec', channel', heq, -, hempty, hnew⟩
  · exact absurd silent (not_silent_awaited spec channel)
  · obtain rfl := channel_inj heq
    exact ⟨hempty, hnew⟩

theorem Wiring.take (hw : Wiring s) :
    s.ids.take = (IdSource.nth s.calls.length, .after (s.calls.length + 1)) := by
  rw [hw.ids, IdSource.take_after]

/-- The next identifier is new. -/
theorem Wiring.fresh (hw : Wiring s) (few : s.calls.length < 2 ^ 64) :
    s.ids.take.1 ∉ s.calls := by
  rw [hw.take, hw.calls]
  simpa using IdSource.nth_not_mem few

theorem Wired.launch (hw : Wired s) (hc : s.Ready c) : Wired (s.launch c).2 := by
  intro few
  have few' : s.calls.length < 2 ^ 64 := by
    rw [calls_launch, List.length_append] at few
    exact few
  have hw := hw few'.le
  have hfresh := hw.fresh few'
  have hunsettled : s.settlements s.ids.take.1 = [] := by
    by_contra hne
    exact hfresh (hw.settled hne)
  -- No call waits under the new identifier, so that none is displaced and no sender is lost.
  have hreplies : (s.launch c).2.replies = s.replies := by
    have hp : s.pending.get? s.ids.take.1 = none := by
      rw [Option.eq_none_iff_forall_ne_some]
      exact fun c' hp => hfresh (mem_calls_of_mem_entries (hw.pending hp))
    rw [launch_eq, hp]
    rfl
  -- An entry is an old one, or that of the new call.
  have hcases : ∀ {id' c'}, (id', c') ∈ (s.launch c).2.entries →
      (id', c') ∈ s.entries ∨ id' = s.ids.take.1 ∧ c' = c := fun {id' c'} hm => by
    rw [entries_launch, List.mem_append, List.mem_singleton, Prod.mk.injEq] at hm
    exact hm
  constructor
  case calls =>
    rw [calls_launch, List.length_append, List.length_singleton, List.range_succ, List.map_append,
      ← hw.calls, hw.take]
    rfl
  case ids =>
    rw [calls_launch, List.length_append, List.length_singleton, launch_eq, hw.take]
  case pending =>
    intro id' c' hp
    rw [launch_eq, PendingCalls.get?_register] at hp
    rw [entries_launch]
    split at hp
    · rename_i hid
      obtain rfl := Option.some.inj hp
      exact List.mem_append_right _ (hid ▸ List.mem_singleton_self _)
    · exact List.mem_append_left _ (hw.pending hp)
  case settled =>
    intro id' hne
    rw [calls_launch]
    exact List.mem_append_left _ (hw.settled (s.settlements_launch c id' ▸ hne))
  case kinds =>
    intro id' c' hm
    rw [hreplies]
    rcases hcases hm with hm | ⟨rfl, rfl⟩
    · exact hw.kinds hm
    · rcases hc with silent | ⟨spec, channel, hc, hhas, -⟩
      · exact .inl silent
      · exact .inr ⟨spec, channel, hc, hhas⟩
  case own =>
    intro id₁ id₂ spec₁ spec₂ channel hm₁ hm₂
    rcases hcases hm₁ with hold₁ | ⟨rfl, rfl⟩ <;> rcases hcases hm₂ with hold₂ | ⟨rfl, hc₂⟩
    · exact hw.own hold₁ hold₂
    · subst hc₂
      exact absurd hold₁ (hc.of_awaited.2 _ _)
    · exact absurd hold₂ (hc.of_awaited.2 _ _)
    · rfl
  case holds =>
    intro id' spec channel hm
    rw [hreplies, told, settlements_launch]
    rcases hcases hm with hm | ⟨rfl, rfl⟩
    · exact hw.holds hm
    · rw [hunsettled]
      exact hc.of_awaited.1

/-! ### Calls that are settled -/

/-- Whatever has been settled then was issued before. -/
theorem Wiring.settled_conclude (hw : Wiring s) (hm : (id, c) ∈ s.entries) {outcome : CallOutcome}
    {id' : RequestId} (hne : (s.conclude id c outcome).settlements id' ≠ []) : id' ∈ s.calls := by
  by_cases hid : id' = id
  · exact hid ▸ mem_calls_of_mem_entries hm
  · rw [settlements_conclude_of_ne hid] at hne
    exact hw.settled hne

/-- A call that nobody waits for is settled. -/
theorem Wiring.conclude_silent (hw : Wiring s) (few : s.calls.length ≤ 2 ^ 64)
    (hm : (id, c) ∈ s.entries) (silent : c.Silent) (outcome : CallOutcome) :
    Wiring (s.conclude id c outcome) := by
  refine hw.of_entries_eq (entries_conclude s id c outcome) rfl (fun _ _ h => h) (fun _ h => h)
    (fun id' hne => hw.settled_conclude hm hne) fun id' spec channel hm' => ?_
  have hid : id' ≠ id := by
    rintro rfl
    exact not_silent_awaited spec channel (hw.eq_of_mem few hm hm' ▸ silent)
  rw [told, settlements_conclude_of_ne hid]
  exact hw.holds hm'

/-- An awaited call is settled, and its outcome is delivered. -/
theorem Wiring.conclude_awaited (hw : Wiring s) (few : s.calls.length ≤ 2 ^ 64) {spec : CallSpec}
    {channel : Channel} (hm : (id, .awaited spec channel) ∈ s.entries) (outcome : CallOutcome) :
    Wiring ((s.conclude id (.awaited spec channel) outcome).deliver channel outcome) := by
  refine hw.of_entries_eq ((entries_deliver _ _ _).trans (entries_conclude _ _ _ _)) rfl
    (fun _ _ h => h) (fun _ h => h.send _ _) (fun id' hne => ?_) fun id' spec' channel' hm' => ?_
  · rw [settlements_deliver] at hne
    exact hw.settled_conclude hm hne
  · rw [told, settlements_deliver]
    by_cases hid : id' = id
    · -- It is this call, and so its channel.
      subst hid
      obtain rfl := channel_inj (hw.eq_of_mem few hm hm')
      refine (Channels.get_send_self (hw.has hm) outcome).trans ?_
      rw [hw.holds hm]
      exact (told_conclude_self s id' _ outcome).symm
    · have hchannel : channel' ≠ channel := by
        rintro rfl
        exact hid (hw.own hm' hm)
      rw [settlements_conclude_of_ne hid]
      exact (Channels.get_send_of_ne hchannel outcome).trans (hw.holds hm')

/-- A call is settled, and its callback runs. -/
theorem Wired.conclude (hw : Wired s) (hm : (id, c) ∈ s.entries) (outcome : CallOutcome)
    (hfollow : ∀ s', Wired s' → c.Silent → Wired (s'.follow (c.resolve outcome))) :
    Wired ((s.conclude id c outcome).follow (c.resolve outcome)) := by
  intro few
  have ho : Onward s ((s.conclude id c outcome).follow (c.resolve outcome)) :=
    (onward_conclude s id c outcome).trans (onward_follow _ _)
  have few' : s.calls.length ≤ 2 ^ 64 := Nat.le_trans ho.length_calls_le few
  have hw := hw few'
  rcases hw.kinds hm with silent | ⟨spec, channel, rfl, -⟩
  · exact hfollow _ (fun _ => hw.conclude_silent few' hm silent outcome) silent few
  · have hdeliver := hw.conclude_awaited few' hm outcome
    cases outcome <;> exact hdeliver

/-! ### Follow-ups -/

theorem mem_entries_launch (s : Session) (c : Call) :
    (s.ids.take.1, c) ∈ (s.launch c).2.entries := by
  rw [entries_launch]
  exact List.mem_append_right _ List.mem_cons_self

theorem Wired.detach (hw : Wired s) (id : RequestId) : Wired (s.detach id) :=
  hw.congr rfl rfl rfl fun id' c hp => by
    rw [Session.detach, Table.get?_erase] at hp
    split at hp
    · cases hp
    · exact hp

/-- A call that is refused is settled at once. -/
theorem Wired.bounce (hw : Wired s) (hc : s.Ready c) (reason : String)
    (hfollow : ∀ s', Wired s' → c.Silent →
      Wired (s'.follow (c.resolve (.error (.transport reason))))) :
    Wired ((s.bounce c reason).follow (c.onError (.transport reason))) :=
  ((hw.launch hc).detach _).conclude (s.mem_entries_launch c) _ hfollow

/-- A call is issued, and what comes after it keeps the channels. -/
theorem Wired.follow_call (hw : Wired s) (hc : s.Ready c) {next : Followup}
    (hfollow : ∀ s' outcome, Wired s' → c.Silent → Wired (s'.follow (c.resolve outcome)))
    (hnext : ∀ s', Wired s' → Wired (s'.follow next)) :
    Wired (s.follow (.call c.spec c.onResult c.onError next)) := by
  cases hl : (s.launch c).2.link with
  | accepting =>
    rw [follow_call_of_accepting hl]
    exact hnext _ (hw.launch hc)
  | refusing reason =>
    rw [follow_call_of_refusing hl]
    exact hnext _ (hw.bounce hc reason fun s' => hfollow s' _)

/-- **A silent follow-up keeps the channels.** -/
theorem Wired.follow {f : Followup} (hf : f.Silent) (hw : Wired s) : Wired (s.follow f) := by
  induction hf generalizing s with
  | done => exact hw
  | @call spec onResult onError next reply result error rest ihResult ihError ihNext =>
    refine hw.follow_call (c := ⟨spec, onResult, onError⟩) (.inl ⟨reply, result, error⟩)
      (fun s' outcome hw' _ => ?_) fun s' hw' => ihNext hw'
    cases outcome with
    | ok v => exact ihResult v hw'
    | error e => exact ihError e hw'

/-- A call is settled. -/
theorem Wired.resolve (hw : Wired s) (hm : (id, c) ∈ s.entries) (outcome : CallOutcome) :
    Wired ((s.conclude id c outcome).follow (c.resolve outcome)) :=
  hw.conclude hm outcome fun _ hw' silent => hw'.follow (silent.resolve outcome)

/-! ### Actions -/

theorem Wired.hand (hw : Wired s) (m : Message) : Wired (s.hand m) := by
  have hlog : (s.hand m).log = s.log ++ [s.turn.link.carry m] := by rw [hand_eq]
  intro few
  have ho : s.calls = (s.hand m).calls := by
    rw [calls_append hlog]
    cases s.turn.link <;> exact (List.append_nil _).symm
  refine (hw (ho ▸ few)).congr ?_ (fun id => ?_) ?_ ?_ fun id c hp => ?_
  · rw [entries_append hlog]
    cases s.turn.link <;> exact List.append_nil _
  · rw [settlements_append hlog]
    cases s.turn.link <;> exact List.append_nil _
  · rw [hand_eq]
  · rw [hand_eq]
  · rw [hand_eq] at hp
    exact hp

theorem Wired.settle (hw : Wired s) (id : RequestId) (outcome : CallOutcome) :
    Wired (s.settle id outcome).2 := by
  intro few
  have hw' := hw (Nat.le_trans (onward_settle s id outcome).length_calls_le few)
  cases hp : s.pending.get? id with
  | none =>
    rw [settle_of_not_pending hp]
    exact hw'
  | some c =>
    rw [settle_of_pending hp] at few ⊢
    exact (hw.detach id).resolve (hw'.pending hp) outcome few

theorem Wired.abort (hw : Wired s) (id : RequestId) (error : CallError) (reason : Option String) :
    Wired (s.abort id error reason).2 := by
  have hsettle := hw.settle id (.error error)
  rw [Session.abort]
  split <;> rename_i heq <;> rw [heq] at hsettle
  · exact hsettle.hand _
  · exact hsettle

theorem Wired.foldl_expire (hw : Wired s) (order : List RequestId) :
    Wired (order.foldl expire s) := by
  induction order generalizing s with
  | nil => exact hw
  | cons id order ih => exact ih (hw.abort id _ _)

theorem Wired.expireAll (hw : Wired s) (order : List RequestId) : Wired (s.expireAll order) := by
  have hkept : Wired { s with deadlines := s.deadlines.notDue s.clock } :=
    hw.congr rfl rfl rfl fun _ _ hp => hp
  exact hkept.foldl_expire order

theorem Wired.foldl_disconnect {order : List (RequestId × Call)} (hw : Wired s)
    (hm : ∀ entry ∈ order, entry ∈ s.entries) : Wired (order.foldl disconnect s) := by
  induction order generalizing s with
  | nil => exact hw
  | cons entry order ih =>
    have hdisarmed : Wired { s with deadlines := s.deadlines.erase entry.1 } :=
      hw.congr rfl rfl rfl fun _ _ hp => hp
    have hdisconnect : Wired (s.disconnect entry) :=
      hdisarmed.resolve (hm entry List.mem_cons_self) _
    refine ih hdisconnect fun other hother => ?_
    exact (onward_disconnect s entry).entries_subset (hm other (List.mem_cons_of_mem _ hother))

/-- The calls that the close settles were issued before. -/
theorem Wired.close (hw : Wired s) {order : List (RequestId × Call)}
    (ho : order.Perm s.pending.toList) : Wired (s.disconnectAll order).cancelInbound := by
  intro few
  have hw' := hw (Nat.le_trans (onward_disconnectAll s order).length_calls_le few)
  have hempty : Wired { s with pending := .empty } :=
    hw.congr rfl rfl rfl fun id c hp => absurd hp (by simp)
  have hall : Wired (s.disconnectAll order) := hempty.foldl_disconnect fun entry he =>
    hw'.pending (Table.mem_entries.1 (ho.mem_iff.1 he))
  exact hall.congr rfl rfl rfl (fun _ _ hp => hp) few

/-- A call that somebody waits for gets a channel of its own. -/
theorem Wired.call (hw : Wired s) (spec : CallSpec) : Wired (s.call spec).2.2 := by
  let opened : Session := { s with replies := s.replies.fresh.2 }
  intro few
  have ho : Onward opened (s.call spec).2.2 := onward_follow _ _
  have hw := hw (Nat.le_trans ho.length_calls_le few)
  have hopened : Wiring opened :=
    hw.of_entries_eq rfl rfl (fun _ _ hp => hp) (fun _ h => h.fresh) (fun _ hne => hw.settled hne)
      fun id spec' channel hm => (Channels.get_fresh_of_has (hw.has hm)).trans (hw.holds hm)
  have hready : opened.Ready (.awaited spec s.replies.fresh.1) :=
    .inr ⟨spec, _, rfl, Channels.has_fresh _, Channels.get_fresh_self _,
      fun id spec' hm => (hw.has hm).ne_fresh rfl⟩
  exact Wired.follow_call (fun _ => hopened) hready
    (fun s' outcome _ silent => absurd silent (not_silent_awaited spec _)) (fun _ hw' => hw') few

theorem Wired.respond (hw : Wired s) (r : Response) : Wired (s.respond r) := by
  rw [respond_eq]
  exact hw.settle _ _

theorem Wired.cancelled (hw : Wired s) (cancel : Cancellation) : Wired (s.cancelled cancel) := by
  cases hr : s.inbound.table.get? cancel.id with
  | some handle =>
    rw [cancelled_of_registered hr]
    exact hw.congr rfl rfl rfl fun _ _ hp => hp
  | none =>
    rw [cancelled_of_not_registered hr]
    exact hw.settle _ _

theorem Wired.handle (hw : Wired s) (m : Message) : Wired (s.handle m).2 := by
  cases m with
  | request r => exact hw
  | response r => exact hw.respond r
  | notification n =>
    cases hn : n.cancellation? with
    | none =>
      rw [handle_of_not_cancellation hn]
      exact hw
    | some cancel =>
      rw [handle_of_cancellation hn]
      exact hw.cancelled cancel

/-- **Every silent action keeps the channels.** -/
theorem Step.wired {a : Action} (step : Step s a s') (silent : a.Silent) (hw : Wired s) :
    Wired s' := by
  cases step with
  | issue c => exact hw.follow (.call silent.reply silent.onResult silent.onError .done)
  | call spec => exact hw.call spec
  | respond r => exact hw.respond r
  | cancelled cancel => exact hw.cancelled cancel
  | cancelCall id reason => exact hw.abort id _ _
  | checkTimeouts ho => exact hw.expireAll _
  | close ho => exact hw.close ho
  | handle m => exact hw.handle m
  | beginInbound id | finishInbound id handle | wait millis | relink link upcoming =>
    exact hw.congr rfl rfl rfl fun _ _ hp => hp

/-- A new session has no channels. -/
theorem wired_new (config : SessionConfig) : Wired { config } :=
  fun _ => ⟨rfl, rfl, fun hp => absurd hp (by simp), fun hne => absurd rfl hne, nofun, nofun, nofun⟩

end Session
end Switchboard
