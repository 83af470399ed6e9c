import Mathlib.Algebra.Order.Ring.Nat
import Mathlib.Data.List.Nodup
import Switchboard.RequestId

/-!
# Identifiers of own calls

An `IdSource` counts up from 1 and wraps around. The `n`th identifier that it hands out is
`IdSource.nth n`, and the first `2^64` of them are distinct.
-/

namespace Switchboard
namespace IdSource

/-- The identifier that is handed out after `n` others. -/
def nth (n : Nat) : RequestId :=
  .number (Int64.ofNat (n + 1))

/-- The source after `n` identifiers. -/
def after (n : Nat) : IdSource :=
  ⟨Int64.ofNat (n + 1)⟩

theorem take_after (n : Nat) : (after n).take = (nth n, after (n + 1)) := by
  simp only [take, after, nth, Int64.ofNat_add]
  rfl

/-- **The first `2^64` identifiers are distinct.** -/
theorem nth_inj {m n : Nat} (hm : m < 2 ^ 64) (hn : n < 2 ^ 64) (h : nth m = nth n) : m = n := by
  have hb : (BitVec.ofNat 64 (m + 1)).toNat = (BitVec.ofNat 64 (n + 1)).toNat :=
    congrArg (fun x : Int64 => x.toBitVec.toNat) (RequestId.number.inj h)
  simp only [BitVec.toNat_ofNat] at hb
  omega

theorem nodup_nth {n : Nat} (hn : n ≤ 2 ^ 64) : ((List.range n).map nth).Nodup := by
  refine List.Nodup.map_on (fun i hi j hj he => ?_) List.nodup_range
  rw [List.mem_range] at hi hj
  exact nth_inj (by omega) (by omega) he

/-- The next identifier is none of those before it. -/
theorem nth_not_mem {n : Nat} (hn : n < 2 ^ 64) : nth n ∉ (List.range n).map nth := by
  intro h
  obtain ⟨m, hm, he⟩ := List.mem_map.1 h
  rw [List.mem_range] at hm
  exact absurd (nth_inj (by omega) hn he) (by omega)

end IdSource
end Switchboard
