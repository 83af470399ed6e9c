import Mathlib.Tactic.Common
import Switchboard.Proofs.Json.Members
import Switchboard.Proofs.Message.RoundTrip

/-!
# The grammar of messages

What `Message.ofJson` accepts, said without it. Five checks are made one after the other
(`Message.Check`): a value that passes them all is a message of one form (`Message.Form`), and every
other value is reported by the first check that it does not pass. The checks and the forms look at
a value only through its members of six names, in whatever order they stand.

An error object is read from an object or from an array of two or three items
(`ErrorObject.Form`). Its own reader visits the members one by one, which is why values are taken
to be canonical: a name stands once.
-/

namespace Switchboard

/-- The integers that are identifiers and codes. -/
def FitsInt64 (n : Int) : Prop :=
  Int64.minValue.toInt ≤ n ∧ n ≤ Int64.maxValue.toInt

theorem fitsInt64_iff {n : Int} :
    FitsInt64 n ↔ -9223372036854775808 ≤ n ∧ n < 9223372036854775808 := by
  have hlow : Int64.minValue.toInt = -9223372036854775808 := by decide
  have hhigh : Int64.maxValue.toInt = 9223372036854775807 := by decide
  rw [FitsInt64, hlow, hhigh]
  omega

theorem fitsInt64_toInt (n : Int64) : FitsInt64 n.toInt :=
  ⟨n.minValue_le_toInt, n.toInt_le⟩

theorem FitsInt64.toInt_ofInt {n : Int} (h : FitsInt64 n) : (Int64.ofInt n).toInt = n := by
  rw [fitsInt64_iff] at h
  exact Int64.toInt_ofInt_of_le (by omega) (by omega)

/-! ### Error objects -/

namespace ErrorObject

/-- The error object that a value stands for: by name in an object, by place in an array. Data that
are `null` count as none. -/
inductive Form : Json → ErrorObject → Prop
  | members {ms : Json.Members} {code : Int} {message : String}
      (hcode : ms.get? "code" = some (.int code)) (hfits : FitsInt64 code)
      (hmessage : ms.get? "message" = some (.str message)) :
      Form (.obj ms) ⟨Int64.ofInt code, message, (ms.get? "data").filter (· ≠ .null)⟩
  | items {code : Int} {message : String} {data : Option Json} (hfits : FitsInt64 code) :
      Form (.arr (.int code :: .str message :: data.toList))
        ⟨Int64.ofInt code, message, data.filter (· ≠ .null)⟩

theorem int64_eq_ok {v : Json} {n : Int} : Shape.int64 v = .ok n ↔ v = .int n ∧ FitsInt64 n := by
  cases v with
  | int m =>
    simp only [Shape.int64, Shape.integer, FitsInt64, Json.int.injEq]
    split
    case isTrue hm =>
      rw [Except.ok.injEq]
      constructor
      · rintro rfl
        exact ⟨rfl, hm⟩
      · exact fun h => h.1
    case isFalse hm =>
      constructor
      · intro h
        cases h
      · rintro ⟨rfl, hn⟩
        exact absurd hn hm
  | _ => simp [Shape.int64, Shape.integer]

theorem text_eq_ok {v : Json} {s : String} : Shape.text v = .ok s ↔ v = .str s := by
  cases v <;> simp [Shape.text]

theorem careful_record : record.Careful :=
  (((Record.Careful.of _).andThen (.required "code" Shape.int64)).andThen
    (.required "message" Shape.text)).andThen (.withDefault "data" none (Shape.nullable Shape.any))

theorem record_build {get : String → Option Json} {e : ErrorObject} :
    record.build get = .ok e ↔
      ∃ code message, get "code" = some (.int code) ∧ FitsInt64 code ∧
        get "message" = some (.str message) ∧
          e = ⟨Int64.ofInt code, message, (get "data").filter (· ≠ .null)⟩ := by
  have hdata : (Record.optional "data" Shape.any).build get =
      .ok ((get "data").filter (· ≠ .null)) := by
    cases hget : get "data" <;> simp [Record.optional, Record.withDefault, hget, nullable_any]
  constructor
  · intro h
    obtain ⟨_, data, h₁, hd, rfl⟩ := Record.andThen_eq_ok.mp h
    obtain ⟨_, message, h₂, hm, rfl⟩ := Record.andThen_eq_ok.mp h₁
    obtain ⟨_, code, h₃, hc, rfl⟩ := Record.andThen_eq_ok.mp h₂
    obtain ⟨v, hcode, hv⟩ := Record.required_eq_ok.mp hc
    obtain ⟨rfl, hfits⟩ := int64_eq_ok.mp hv
    obtain ⟨w, hmessage, hw⟩ := Record.required_eq_ok.mp hm
    obtain rfl := text_eq_ok.mp hw
    cases h₃
    cases hdata.symm.trans hd
    exact ⟨code, message, hcode, hfits, hmessage, rfl⟩
  · rintro ⟨code, message, hcode, hfits, hmessage, rfl⟩
    have hc := Record.required_eq_ok.mpr ⟨_, hcode, int64_eq_ok.mpr ⟨rfl, hfits⟩⟩
    have hm := Record.required_eq_ok.mpr ⟨_, hmessage, text_eq_ok.mpr rfl⟩
    refine Record.andThen_eq_ok.mpr ⟨_, _, ?_, hdata, rfl⟩
    refine Record.andThen_eq_ok.mpr ⟨_, _, ?_, hm, rfl⟩
    exact Record.andThen_eq_ok.mpr ⟨_, _, rfl, hc, rfl⟩

theorem ofJson_eq_ok {v : Json} (hv : v.Canonical) {e : ErrorObject} :
    ofJson v = .ok e ↔ Form v e := by
  cases v with
  | obj ms =>
    rw [ofJson, Record.read_obj careful_record hv.1, record_build]
    constructor
    · rintro ⟨code, message, hcode, hfits, hmessage, rfl⟩
      exact .members hcode hfits hmessage
    · rintro (⟨hcode, hfits, hmessage⟩ | _)
      exact ⟨_, _, hcode, hfits, hmessage, rfl⟩
  | arr items =>
    rw [ofJson, Record.read_arr careful_record (by decide), record_build]
    constructor
    · rintro ⟨hlength, htrailing, code, message, hcode, hfits, hmessage, rfl⟩
      rcases items with _ | ⟨c, _ | ⟨m, _ | ⟨d, _ | ⟨_, _⟩⟩⟩⟩
      · cases hcode
      · cases hmessage
      · cases hcode
        cases hmessage
        exact @Form.items _ _ none hfits
      · cases hcode
        cases hmessage
        exact @Form.items _ _ (some d) hfits
      · have hfields : record.fields.length = 3 := rfl
        rw [hfields] at hlength
        exact absurd hlength (by simp)
    · rintro (_ | @⟨_, _, data, hfits⟩)
      have hpair : ∀ f ∈ record.fields.drop 2, f.trailing = true := by decide
      cases data
      · exact ⟨Nat.le_succ 2, hpair, _, _, rfl, hfits, rfl, rfl⟩
      · exact ⟨Nat.le_refl 3, List.forall_mem_nil _, _, _, rfl, hfits, rfl, rfl⟩
  | _ =>
    constructor
    · intro h
      cases h
    · intro h
      cases h

end ErrorObject

/-! ### Identifiers -/

namespace RequestId

theorem ofJson_eq_ok {v : Json} {id : RequestId} : ofJson v = .ok id ↔ v = id.toJson := by
  constructor
  · intro h
    cases v with
    | int n =>
      rw [ofJson] at h
      split at h
      case isTrue hrange =>
        cases h
        have hfits : FitsInt64 n := fitsInt64_iff.mpr ⟨by omega, by omega⟩
        rw [toJson, hfits.toInt_ofInt]
      case isFalse => cases h
    | str s =>
      cases h
      rfl
    | _ => cases h
  · rintro rfl
    exact ofJson_toJson id

theorem toJson_ne_null (id : RequestId) : id.toJson ≠ .null := by
  cases id <;> simp [toJson]

theorem exists_toJson_iff {v : Json} :
    (∃ id : RequestId, v = id.toJson) ↔ (∃ s, v = .str s) ∨ ∃ n, v = .int n ∧ FitsInt64 n := by
  constructor
  · rintro ⟨n | s, rfl⟩
    · exact .inr ⟨_, rfl, fitsInt64_toInt n⟩
    · exact .inl ⟨s, rfl⟩
  · rintro (⟨s, rfl⟩ | ⟨n, rfl, hfits⟩)
    · exact ⟨.text s, rfl⟩
    · exact ⟨.number (Int64.ofInt n), by rw [toJson, hfits.toInt_ofInt]⟩

end RequestId

namespace Message

/-- An identifier that is not `null`, whether or not it is well-formed. -/
def HasId (v : Json) : Prop :=
  ∃ w, v.member? "id" = some w ∧ w ≠ .null

/-! ### The checks -/

/-- The checks that a value goes through, in their order. -/
inductive Check
  | object
  | version
  | id
  | method
  | outcome

namespace Check

def rank : Check → Nat
  | object => 0
  | version => 1
  | id => 2
  | method => 3
  | outcome => 4

/-- What each check asks of a value. -/
def Passes (v : Json) : Check → Prop
  | object => ∃ ms, v = .obj ms
  | version => v.member? "jsonrpc" = some (.str "2.0")
  | id => ∀ w, v.member? "id" = some w →
      w = .null ∨ (∃ s, w = .str s) ∨ ∃ n, w = .int n ∧ FitsInt64 n
  | method => (∃ s, v.member? "method" = some (.str s)) ∨ v.member? "method" = none ∧ HasId v
  | outcome => v.member? "method" = none →
      (∃ r, v.member? "result" = some r) ∧ v.member? "error" = none ∨
        v.member? "result" = none ∧ ∃ w e, v.member? "error" = some w ∧ ErrorObject.Form w e

/-- The check fails, and it is the first one to do so. -/
def First (v : Json) (c : Check) : Prop :=
  ¬ c.Passes v ∧ ∀ d : Check, d.rank < c.rank → d.Passes v

/-- How the check reports a value that fails it. -/
def report (v : Json) : Check → Error
  | object => .defect .notAnObject
  | version => .defect .noVersion
  | id => .defect .badId
  | method => .defect (if v.member? "method" = none then .noMethodNorId else .badMethod)
  | outcome =>
    -- An `error` alone is at fault itself, with what its own reader says.
    match v.member? "result", (v.member? "error").map ErrorObject.ofJson with
    | none, some (.error fault) => .shape fault
    | _, _ => .defect .badOutcome

theorem First.unique {v : Json} {c d : Check} (hc : c.First v) (hd : d.First v) : c = d := by
  rcases Nat.lt_trichotomy c.rank d.rank with hlt | heq | hlt
  · exact absurd (hd.2 c hlt) hc.1
  · cases c <;> cases d <;> first | rfl | cases heq
  · exact absurd (hc.2 d hlt) hd.1

end Check

/-! ### The forms -/

/-- The message that a value is, by its members: a method makes a request or, without an identifier,
a notification; without a method it is a response. -/
inductive Form (v : Json) : Message → Prop
  | request {id : RequestId} {method : String} (hmethod : v.member? "method" = some (.str method))
      (hid : v.member? "id" = some id.toJson) :
      Form v (.request ⟨id, method, v.member? "params"⟩)
  | notification {method : String} (hmethod : v.member? "method" = some (.str method))
      (hid : ¬ HasId v) : Form v (.notification ⟨method, v.member? "params"⟩)
  | result {id : RequestId} {r : Json} (hmethod : v.member? "method" = none)
      (hid : v.member? "id" = some id.toJson) (hresult : v.member? "result" = some r)
      (herror : v.member? "error" = none) : Form v (.response ⟨id, .result r⟩)
  | failure {id : RequestId} {w : Json} {e : ErrorObject} (hmethod : v.member? "method" = none)
      (hid : v.member? "id" = some id.toJson) (hresult : v.member? "result" = none)
      (herror : v.member? "error" = some w) (hform : ErrorObject.Form w e) :
      Form v (.response ⟨id, .failure e⟩)

/-- What the checks make of a value. -/
def Judged (v : Json) : Except Error Message → Prop
  | .ok m => (∀ c : Check, c.Passes v) ∧ Form v m
  | .error e => ∃ c : Check, c.First v ∧ e = c.report v

/-! ### What is read -/

section

variable {v : Json} {ms : Json.Members} {id : RequestId}

theorem hasId_of_member? (hid : v.member? "id" = some id.toJson) : HasId v :=
  ⟨_, hid, id.toJson_ne_null⟩

/-- The identifier of a value. -/
def IdOf (v : Json) : Option RequestId → Prop
  | none => ¬ HasId v
  | some id => v.member? "id" = some id.toJson

theorem IdOf.passes {id? : Option RequestId} (h : IdOf v id?) : Check.id.Passes v := by
  intro w hw
  cases id? with
  | none => exact .inl (Decidable.byContradiction fun hnull => h ⟨w, hw, hnull⟩)
  | some id =>
    have hw : w = id.toJson := Option.some.inj (hw.symm.trans h)
    exact .inr (RequestId.exists_toJson_iff.mp ⟨id, hw⟩)

theorem readId_cases (ms : Json.Members) :
    (∃ id?, IdOf (.obj ms) id? ∧ readId ms = .ok id?) ∨
      ¬ Check.id.Passes (.obj ms) ∧ readId ms = .error (.defect .badId) := by
  cases hget : ms.get? "id" with
  | none =>
    refine .inl ⟨none, ?_, by rw [readId, hget]⟩
    rintro ⟨w, hw, -⟩
    cases hget.symm.trans hw
  | some w =>
    rcases Decidable.em (w = .null) with rfl | hnull
    · refine .inl ⟨none, ?_, by rw [readId, hget]⟩
      rintro ⟨w, hw, hne⟩
      exact hne (Option.some.inj (hget.symm.trans hw)).symm
    · cases hread : RequestId.ofJson w with
      | ok id =>
        have hget : ms.get? "id" = some id.toJson := RequestId.ofJson_eq_ok.mp hread ▸ hget
        exact .inl ⟨some id, hget, readId_of_get? hget⟩
      | error e =>
        refine .inr ⟨?_, ?_⟩
        · intro hpasses
          obtain ⟨id, hw⟩ := RequestId.exists_toJson_iff.mpr ((hpasses w hget).resolve_left hnull)
          rw [RequestId.ofJson_eq_ok.mpr hw] at hread
          cases hread
        · simp only [readId, hget, hread]

theorem Judged.reject {c : Check} {e : Error} (hbefore : ∀ d : Check, d.rank < c.rank → d.Passes v)
    (hc : ¬ c.Passes v) (he : e = c.report v) : Judged v (.error e) :=
  ⟨c, ⟨hc, hbefore⟩, he⟩

theorem judged_readResponse (hv : (Json.obj ms).Canonical)
    (hversion : ms.get? "jsonrpc" = some version) (hid : IdOf (.obj ms) (some id))
    (hmethod : ms.get? "method" = none) : Judged (.obj ms) (readResponse id ms) := by
  have hbefore (d : Check) (hd : d.rank < Check.outcome.rank) : d.Passes (.obj ms) := by
    cases d with
    | object => exact ⟨ms, rfl⟩
    | version => exact hversion
    | id => exact hid.passes
    | method => exact .inr ⟨hmethod, hasId_of_member? hid⟩
    | outcome => exact absurd hd (Nat.lt_irrefl _)
  have haccept (hpasses : Check.outcome.Passes (.obj ms)) (c : Check) : c.Passes (.obj ms) := by
    cases c with
    | outcome => exact hpasses
    | _ => exact hbefore _ (by decide)
  cases hresult : ms.get? "result" with
  | some r =>
    cases herror : ms.get? "error" with
    | none =>
      simp only [readResponse, hresult, herror]
      exact ⟨haccept fun _ => .inl ⟨⟨r, hresult⟩, herror⟩, .result hmethod hid hresult herror⟩
    | some w =>
      simp only [readResponse, hresult, herror]
      refine .reject hbefore (fun hpasses => ?_) (by simp [Check.report, Json.member?, hresult])
      rcases hpasses hmethod with ⟨-, hnone⟩ | ⟨hnone, -⟩
      · cases herror.symm.trans hnone
      · cases hresult.symm.trans hnone
  | none =>
    cases herror : ms.get? "error" with
    | none =>
      simp only [readResponse, hresult, herror]
      refine .reject hbefore (fun hpasses => ?_) (by simp [Check.report, Json.member?, herror])
      rcases hpasses hmethod with ⟨⟨r, hsome⟩, -⟩ | ⟨-, w, e, hsome, -⟩
      · cases hresult.symm.trans hsome
      · cases herror.symm.trans hsome
    | some w =>
      have hw : w.Canonical := hv.2.of_get? herror
      cases hread : ErrorObject.ofJson w with
      | ok e =>
        simp only [readResponse, hresult, herror, hread]
        have hform := (ErrorObject.ofJson_eq_ok hw).mp hread
        exact ⟨haccept fun _ => .inr ⟨hresult, w, e, herror, hform⟩,
          .failure hmethod hid hresult herror hform⟩
      | error fault =>
        simp only [readResponse, hresult, herror, hread]
        refine .reject hbefore (fun hpasses => ?_)
          (by simp [Check.report, Json.member?, hresult, herror, hread])
        rcases hpasses hmethod with ⟨⟨r, hsome⟩, -⟩ | ⟨-, w', e, hsome, hform⟩
        · cases hresult.symm.trans hsome
        · obtain rfl : w = w' := Option.some.inj (herror.symm.trans hsome)
          cases hread.symm.trans ((ErrorObject.ofJson_eq_ok hw).mpr hform)

/-- **The checks decide.** -/
theorem judged_ofJson (hv : v.Canonical) : Judged v (ofJson v) := by
  cases v with
  | obj ms =>
    rw [ofJson]
    split
    case isFalse hversion =>
      refine .reject (c := .version) (fun d hd => ?_) hversion rfl
      cases d with
      | object => exact ⟨ms, rfl⟩
      | _ => exact absurd hd (by decide)
    case isTrue hversion =>
      rcases readId_cases ms with ⟨id?, hid, hread⟩ | ⟨hfails, hread⟩
      · have hbefore (d : Check) (hd : d.rank < Check.method.rank) : d.Passes (.obj ms) := by
          cases d with
          | object => exact ⟨ms, rfl⟩
          | version => exact hversion
          | id => exact hid.passes
          | _ => exact absurd hd (by decide)
        have haccept {method : String}
            (hmethod : Json.Members.get? "method" ms = some (.str method)) (c : Check) :
            c.Passes (.obj ms) := by
          cases c with
          | method => exact .inl ⟨method, hmethod⟩
          | outcome => exact fun hnone => absurd (hmethod.symm.trans hnone) (Option.some_ne_none _)
          | _ => exact hbefore _ (by decide)
        rw [hread]
        simp only
        split
        case h_1 method id hmethod => exact ⟨haccept hmethod, .request hmethod hid⟩
        case h_2 method hmethod => exact ⟨haccept hmethod, .notification hmethod hid⟩
        case h_3 id? _ _ w hmethod hrequest hnotification =>
          refine .reject (c := .method) hbefore ?_ (by simp [Check.report, Json.member?, hmethod])
          rintro (⟨s, hs⟩ | ⟨hnone, -⟩)
          · have hs : w = .str s := Option.some.inj (hmethod.symm.trans hs)
            cases id? with
            | none => exact hnotification s rfl hs
            | some id => exact hrequest s id rfl hs
          · cases hmethod.symm.trans hnone
        case h_4 id hmethod => exact judged_readResponse hv hversion hid hmethod
        case h_5 hmethod =>
          refine .reject (c := .method) hbefore ?_ (by simp [Check.report, Json.member?, hmethod])
          rintro (⟨s, hs⟩ | ⟨-, hhas⟩)
          · cases hmethod.symm.trans hs
          · exact hid hhas
      · rw [hread]
        refine .reject (c := .id) (fun d hd => ?_) hfails rfl
        cases d with
        | object => exact ⟨ms, rfl⟩
        | version => exact hversion
        | _ => exact absurd hd (by decide)
  | _ =>
    exact .reject (c := .object) (fun d hd => absurd hd (Nat.not_lt_zero _))
      (by simp [Check.Passes]) rfl

theorem Form.ofJson {m : Message} (hv : v.Canonical) (hpasses : ∀ c : Check, c.Passes v)
    (h : Form v m) : Message.ofJson v = .ok m := by
  obtain ⟨ms, rfl⟩ := hpasses .object
  have hversion : Json.Members.get? "jsonrpc" ms = some version := hpasses .version
  cases h with
  | request hmethod hid => exact ofJson_request hversion hid hmethod
  | @notification method hmethod hid =>
    have hmethod : Json.Members.get? "method" ms = some (.str method) := hmethod
    rcases readId_cases ms with ⟨none | id, hof, hread⟩ | ⟨hfails, -⟩
    · rw [Message.ofJson, if_pos hversion, hread, hmethod]
      rfl
    · exact absurd (hasId_of_member? hof) hid
    · exact absurd (hpasses .id) hfails
  | result hmethod hid hresult herror =>
    rw [ofJson_response hversion hid hmethod]
    simp only [Json.member?] at hresult herror
    simp only [readResponse, hresult, herror]
  | @failure _ w _ hmethod hid hresult herror hform =>
    have hw : w.Canonical := hv.2.of_get? herror
    rw [ofJson_response hversion hid hmethod]
    simp only [Json.member?] at hresult herror
    simp only [readResponse, hresult, herror, (ErrorObject.ofJson_eq_ok hw).mpr hform]

theorem ofJson_eq_iff_judged (hv : v.Canonical) {r : Except Error Message} :
    ofJson v = r ↔ Judged v r := by
  refine ⟨fun h => h ▸ judged_ofJson hv, fun h => ?_⟩
  cases r with
  | ok m => exact Form.ofJson hv h.1 h.2
  | error e =>
    obtain ⟨c, hfirst, rfl⟩ := h
    have hjudged := judged_ofJson hv
    cases hread : ofJson v with
    | ok m =>
      rw [hread] at hjudged
      exact absurd (hjudged.1 c) hfirst.1
    | error e =>
      rw [hread] at hjudged
      obtain ⟨d, hd, rfl⟩ := hjudged
      rw [hd.unique hfirst]

/-! ### What a value is read by -/

/-- The names of the members that are looked at. -/
def memberNames : List String :=
  ["jsonrpc", "id", "method", "params", "result", "error"]

theorem ofJson_congr {ns : Json.Members} (h : ∀ k ∈ memberNames, ns.get? k = ms.get? k) :
    ofJson (.obj ns) = ofJson (.obj ms) := by
  simp only [memberNames, List.forall_mem_cons, List.not_mem_nil, false_imp_iff, implies_true,
    and_true] at h
  obtain ⟨hversion, hid, hmethod, hparams, hresult, herror⟩ := h
  have hreadId : readId ns = readId ms := by rw [readId, readId, hid]
  have hresponse (id : RequestId) : readResponse id ns = readResponse id ms := by
    rw [readResponse, readResponse, hresult, herror]
  simp only [ofJson, hversion, hreadId, hmethod, hparams, hresponse]

end

/-- **A value is a message exactly if it passes the checks**, and then it is the message of its
form. Its kind is a matter of whether there is a method and an identifier that is not `null`. Every
other value is reported by the first check that fails, and members of other names change nothing. -/
theorem ofJson_grammar (v : Json) (hv : v.Canonical) :
    ((∃ m, ofJson v = .ok m) ↔ ∀ c : Check, c.Passes v) ∧
      (∀ m, ofJson v = .ok m →
        Form v m ∧
        ((∃ r, m = .request r) ↔ v.member? "method" ≠ none ∧ HasId v) ∧
        ((∃ n, m = .notification n) ↔ v.member? "method" ≠ none ∧ ¬ HasId v) ∧
        ((∃ r, m = .response r) ↔ v.member? "method" = none ∧ HasId v)) ∧
      (∀ e, ofJson v = .error e ↔ ∃ c : Check, c.First v ∧ e = c.report v) ∧
      ∀ ms ns : Json.Members, v = .obj ms → (∀ k ∈ memberNames, ns.get? k = ms.get? k) →
        ofJson (.obj ns) = ofJson v := by
  refine ⟨⟨fun ⟨m, hm⟩ => ((ofJson_eq_iff_judged hv).mp hm).1, fun hpasses => ?_⟩, fun m hm => ?_,
    fun e => ofJson_eq_iff_judged hv, ?_⟩
  · cases hread : ofJson v with
    | ok m => exact ⟨m, rfl⟩
    | error e =>
      obtain ⟨c, hfirst, -⟩ := (ofJson_eq_iff_judged hv).mp hread
      exact absurd (hpasses c) hfirst.1
  · have hform := ((ofJson_eq_iff_judged hv).mp hm).2
    refine ⟨hform, ?_⟩
    cases hform with
    | request hmethod hid => simp [hmethod, hasId_of_member? hid]
    | notification hmethod hid => simp [hmethod, hid]
    | result hmethod hid => simp [hmethod, hasId_of_member? hid]
    | failure hmethod hid => simp [hmethod, hasId_of_member? hid]
  · rintro ms ns rfl h
    exact ofJson_congr h

/-- An error written as an array, beside a member that no message has. -/
theorem ofJson_grammar_array :
    (Json.obj [("error", .arr [.int (-32601), .str "no"]), ("id", .int 7), ("jsonrpc", .str "2.0"),
      ("trace", .null)]).Canonical ∧
    ∃ m, ofJson (.obj [("error", .arr [.int (-32601), .str "no"]), ("id", .int 7),
      ("jsonrpc", .str "2.0"), ("trace", .null)]) = .ok m := by
  have hv : (Json.obj [("error", .arr [.int (-32601), .str "no"]), ("id", .int 7),
      ("jsonrpc", .str "2.0"), ("trace", .null)]).Canonical := by
    refine ⟨?_, ?_⟩
    · unfold Json.Members.Sorted
      decide
    · simp [Json.CanonicalMembers, Json.Canonical, Json.CanonicalItems, Json.inRange]
  refine ⟨hv, (ofJson_grammar _ hv).1.mpr fun c => ?_⟩
  cases c with
  | object => exact ⟨_, rfl⟩
  | version => rfl
  | id => exact fun w hw => .inr (.inr ⟨7, (Option.some.inj hw).symm, by decide, by decide⟩)
  | method => exact .inr ⟨rfl, _, rfl, by simp⟩
  | outcome =>
    have hform : ErrorObject.Form (.arr [.int (-32601), .str "no"]) _ :=
      @ErrorObject.Form.items _ _ none ⟨by decide, by decide⟩
    exact fun _ => .inr ⟨rfl, _, _, rfl, hform⟩

end Message
end Switchboard
