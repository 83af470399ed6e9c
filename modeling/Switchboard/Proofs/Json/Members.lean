import Switchboard.Json.Shape

/-!
# Members by their names

Members that are sorted hold a name at most once, so that they are known by what `Members.get?` says
of every name (`Sorted.ext`), and leaving some of them out shows in that alone
(`Sorted.get?_filter`).

A record first checks the members one by one and then builds its value from them by name. For
`Careful` records the second includes the first: `Record.read_obj` is then nothing but
`Record.build`.
-/

namespace Switchboard
namespace Json

namespace Members

variable {ms ns : Members} {k : String} {v : Json}

theorem mem_of_get? (h : get? k ms = some v) : (k, v) ∈ ms := by
  induction ms with
  | nil => exact nomatch h
  | cons m ms ih =>
    rw [get?] at h
    split at h
    case isTrue hk =>
      cases hk
      cases h
      exact List.mem_cons_self
    case isFalse hk => exact List.mem_cons_of_mem m (ih h)

/-- **Sorted members hold a name once:** what stands there is what the name is looked up as. -/
theorem Sorted.get?_eq_some (h : Sorted ms) : get? k ms = some v ↔ (k, v) ∈ ms := by
  refine ⟨mem_of_get?, fun hmem => ?_⟩
  induction h with
  | nil => exact nomatch hmem
  | @cons m ms hlt _ ih =>
    rw [get?]
    rcases List.mem_cons.mp hmem with rfl | hmem
    · exact if_pos rfl
    · have hne : k ≠ m.1 := fun he => String.lt_irrefl k (by simpa only [he] using hlt _ hmem)
      rw [if_neg hne, ih hmem]

theorem Sorted.nodup (h : Sorted ms) : ms.Nodup := by
  refine List.Pairwise.imp ?_ h
  rintro m n hlt rfl
  exact String.lt_irrefl m.1 hlt

/-- **Sorted members are known by what every name is looked up as.** -/
theorem Sorted.ext (hms : Sorted ms) (hns : Sorted ns) (h : ∀ k, get? k ms = get? k ns) :
    ms = ns := by
  have hmem : ∀ m : String × Json, m ∈ ms ↔ m ∈ ns := fun m => by
    rw [← hms.get?_eq_some, ← hns.get?_eq_some, h]
  have hperm : ms.Perm ns := (List.perm_ext_iff_of_nodup hms.nodup hns.nodup).mpr hmem
  exact hperm.eq_of_pairwise
    (fun a b _ _ hab hba => absurd (String.lt_trans hab hba) (String.lt_irrefl a.1)) hms hns

theorem Sorted.get?_filter (h : Sorted ms) (p : String × Json → Bool) (k : String) :
    get? k (ms.filter p) = (get? k ms).filter fun v => p (k, v) := by
  ext v
  rw [Sorted.get?_eq_some (h.filter p), List.mem_filter, Option.filter_eq_some_iff,
    h.get?_eq_some]

/-- Values may be rewritten, each in the light of its name. -/
def mapValues (f : String → Json → Json) (ms : Members) : Members :=
  ms.map fun m => (m.1, f m.1 m.2)

theorem get?_mapValues (f : String → Json → Json) (k : String) (ms : Members) :
    get? k (mapValues f ms) = (get? k ms).map (f k) := by
  induction ms with
  | nil => rfl
  | cons m ms ih =>
    rw [mapValues, List.map_cons, get?, get?]
    split
    case isTrue hk => rw [hk]; rfl
    case isFalse hk => exact ih

theorem sorted_mapValues (h : Sorted ms) (f : String → Json → Json) : Sorted (mapValues f ms) :=
  List.pairwise_map.mpr h

theorem get?_insert (j k : String) (v : Json) (ms : Members) :
    get? j (insert k v ms) = if j = k then some v else get? j ms := by
  induction ms with
  | nil => rfl
  | cons m ms ih =>
    rw [insert]
    split
    case isTrue hk =>
      subst hk
      rw [get?, get?]
      split <;> rfl
    case isFalse =>
      split
      case isTrue => rfl
      case isFalse hne _ =>
        rw [get?, get?, ih]
        rcases Decidable.em (j = m.1) with rfl | hj
        · rw [if_pos rfl, if_pos rfl, if_neg (Ne.symm hne)]
        · rw [if_neg hj, if_neg hj]

theorem get?_ofList_concat (j k : String) (v : Json) (ms : List (String × Json)) :
    get? j (ofList (ms ++ [(k, v)])) = if j = k then some v else get? j (ofList ms) := by
  rw [ofList, List.foldl_append]
  exact get?_insert j k v (ofList ms)

/-- A last member that may be lacking. -/
theorem get?_ofList_append_toList (j k : String) (v? : Option Json) (ms : List (String × Json))
    (hk : get? k (ofList ms) = none) :
    get? j (ofList (ms ++ v?.toList.map fun v => (k, v))) =
      if j = k then v? else get? j (ofList ms) := by
  cases v? with
  | some v => exact get?_ofList_concat j k v ms
  | none =>
    rw [Option.toList_none, List.map_nil, List.append_nil]
    split
    case isTrue hj => rw [hj, hk]
    case isFalse => rfl

/-- Of two lists, the later one has its way. -/
theorem get?_ofList_append (j : String) (ms ns : List (String × Json)) :
    get? j (ofList (ms ++ ns)) = (get? j (ofList ns)).or (get? j (ofList ms)) := by
  induction ns generalizing ms with
  | nil =>
    rw [List.append_nil]
    rfl
  | cons n ns ih =>
    have hone : get? j (ofList (ms ++ [n])) = (get? j (ofList [n])).or (get? j (ofList ms)) := by
      have hlast := get?_ofList_concat j n.1 n.2 []
      rw [List.nil_append] at hlast
      rw [get?_ofList_concat, hlast]
      split <;> rfl
    rw [List.append_cons, ih, hone, ← Option.or_assoc, ← ih [n], List.singleton_append]

/-- A member that is written if there is a value. -/
theorem get?_ofList_toList {α : Type} (j k : String) (write : α → Json) (a? : Option α) :
    get? j (ofList (a?.toList.map fun a => (k, write a))) = if j = k then a?.map write else none := by
  have hlast := get?_ofList_append_toList j k (a?.map write) [] rfl
  cases a? <;> exact hlast

theorem mem_insert {m : String × Json} (h : m ∈ insert k v ms) : m = (k, v) ∨ m ∈ ms := by
  induction ms with
  | nil => exact .inl (List.mem_singleton.mp h)
  | cons n ms ih =>
    rw [insert] at h
    split at h
    · exact (List.mem_cons.mp h).imp_right (List.mem_cons_of_mem n)
    · split at h
      · exact List.mem_cons.mp h
      · rcases List.mem_cons.mp h with rfl | h
        · exact .inr List.mem_cons_self
        · exact (ih h).imp_right (List.mem_cons_of_mem n)

theorem sorted_insert (h : Sorted ms) (k : String) (v : Json) : Sorted (insert k v ms) := by
  induction h with
  | nil => exact List.pairwise_singleton _ _
  | @cons n ms hlt hrest ih =>
    rw [insert]
    split
    case isTrue hk => exact .cons (hk ▸ hlt) hrest
    case isFalse hne =>
      split
      case isTrue hk =>
        refine .cons (List.forall_mem_cons.mpr ⟨hk, fun m hm => ?_⟩) (.cons hlt hrest)
        exact String.lt_trans hk (hlt m hm)
      case isFalse hk =>
        refine .cons (fun m hm => ?_) ih
        rcases mem_insert hm with rfl | hm
        · exact Decidable.byContradiction fun hn => hne (String.le_antisymm hk hn).symm
        · exact hlt m hm

/-- **Members from a list are sorted.** -/
theorem sorted_ofList (ms : List (String × Json)) : Sorted (ofList ms) := by
  have hfold : ∀ acc, Sorted acc → Sorted (ms.foldl (fun acc m => acc.insert m.1 m.2) acc) := by
    induction ms with
    | nil => exact fun acc h => h
    | cons m ms ih => exact fun acc h => ih _ (sorted_insert h m.1 m.2)
  exact hfold [] .nil

theorem mem_ofList {m : String × Json} {ms : List (String × Json)} (h : m ∈ ofList ms) :
    m ∈ ms := by
  have hfold : ∀ acc : Members,
      m ∈ ms.foldl (fun acc n => acc.insert n.1 n.2) acc → m ∈ acc ∨ m ∈ ms := by
    clear h
    induction ms with
    | nil => exact fun acc h => .inl h
    | cons n ms ih =>
      intro acc h
      rcases ih _ h with h | h
      · rcases mem_insert h with rfl | h
        · exact .inr List.mem_cons_self
        · exact .inl h
      · exact .inr (List.mem_cons_of_mem n h)
  exact (hfold [] h).resolve_left List.not_mem_nil

end Members

theorem CanonicalMembers.of_get? {ms : Members} {k : String} {v : Json} (h : CanonicalMembers ms)
    (hget : Members.get? k ms = some v) : v.Canonical := by
  induction ms with
  | nil => exact nomatch hget
  | cons m ms ih =>
    obtain ⟨hv, hrest⟩ := h
    rw [Members.get?] at hget
    split at hget
    case isTrue => cases hget; exact hv
    case isFalse => exact ih hrest hget

end Json

/-! ### Records -/

/-- A field lets its value stand, or the lack of one. -/
def Field.Lets (f : Field) : Option Json → Prop
  | some v => f.check v = .ok ()
  | none => f.optional = true

namespace Record

variable {α β : Type}

/-- A record that builds nothing from values that one of its fields refuses. -/
def Careful (r : Record α) : Prop :=
  ∀ get a, r.build get = .ok a → ∀ f ∈ r.fields, f.Lets (get f.name)

theorem Careful.of (a : α) : (of a).Careful :=
  nofun

theorem map_eq_ok {shape : Shape α} {v : Json} {a : α} (h : shape v = .ok a) :
    (shape v).map (fun _ => ()) = .ok () := by
  rw [h]
  rfl

theorem required_eq_ok {name : String} {shape : Shape α} {get : String → Option Json} {a : α} :
    (required name shape).build get = .ok a ↔ ∃ v, get name = some v ∧ shape v = .ok a := by
  cases hget : get name <;> simp [required, hget]

theorem Careful.required (name : String) (shape : Shape α) : (required name shape).Careful := by
  intro get a hbuild f hf
  cases List.mem_singleton.mp hf
  obtain ⟨v, hget, hshape⟩ := required_eq_ok.mp hbuild
  rw [hget]
  exact map_eq_ok hshape

theorem Careful.withDefault (name : String) (default : α) (shape : Shape α) :
    (withDefault name default shape).Careful := by
  intro get a hbuild f hf
  cases List.mem_singleton.mp hf
  simp only [Record.withDefault] at hbuild
  cases hget : get name with
  | some v =>
    rw [hget] at hbuild
    exact map_eq_ok hbuild
  | none => exact rfl

/-- A field that may be left out reads back, if what is written for its value is not `null`. -/
theorem build_optional {γ : Type} {name : String} {shape : Shape β} {get : String → Option Json}
    {write : γ → Json} {back : γ → β} {a? : Option γ} (hget : get name = a?.map write)
    (hshape : ∀ a, a? = some a → write a ≠ .null ∧ shape (write a) = .ok (back a)) :
    (optional name shape).build get = .ok (a?.map back) := by
  cases a? with
  | none =>
    simp only [optional, withDefault, hget]
    rfl
  | some a =>
    obtain ⟨hnull, hread⟩ := hshape a rfl
    have hnullable : Shape.nullable shape (write a) = (shape (write a)).map some := by
      unfold Shape.nullable
      split
      case h_1 heq => exact absurd heq hnull
      case h_2 => rfl
    simp only [optional, withDefault, hget, Option.map_some, hnullable, hread]
    rfl

theorem build_optional_text {name : String} {get : String → Option Json} {s? : Option String}
    (hget : get name = s?.map Json.str) : (optional name Shape.text).build get = .ok s? := by
  have hback : (optional name Shape.text).build get = .ok (s?.map fun s => s) :=
    build_optional hget fun s _ => ⟨by simp, rfl⟩
  rwa [Option.map_id'] at hback

theorem andThen_eq_ok {f : Record (α → β)} {x : Record α} {get : String → Option Json} {b : β} :
    (f.andThen x).build get = .ok b ↔
      ∃ g a, f.build get = .ok g ∧ x.build get = .ok a ∧ g a = b := by
  cases hf : f.build get <;> cases hx : x.build get <;> simp [andThen, hf, hx]

theorem Careful.andThen {f : Record (α → β)} {x : Record α} (hf : f.Careful) (hx : x.Careful) :
    (f.andThen x).Careful := by
  intro get b hbuild field hmem
  obtain ⟨g, a, hg, ha, -⟩ := andThen_eq_ok.mp hbuild
  rcases List.mem_append.mp hmem with hmem | hmem
  · exact hf get g hg field hmem
  · exact hx get a ha field hmem

theorem checkMembers_eq_ok {fields : List Field} {ms : Json.Members} :
    checkMembers fields ms = .ok () ↔
      ∀ m ∈ ms, ∀ f, fields.find? (·.name = m.1) = some f → f.check m.2 = .ok () := by
  induction ms with
  | nil => simp [checkMembers]
  | cons m ms ih =>
    rw [checkMembers, List.forall_mem_cons]
    cases hfind : fields.find? (·.name = m.1) with
    | none => simp [ih]
    | some f => cases hcheck : f.check m.2 <;> simp [ih, hcheck]

/-- **A careful record reads sorted members by building from their names.** -/
theorem read_obj {r : Record α} (hr : r.Careful) {ms : Json.Members} (hms : ms.Sorted)
    {type : String} {a : α} :
    read type r (.obj ms) = .ok a ↔ r.build (fun name => ms.get? name) = .ok a := by
  constructor
  · intro h
    rw [read] at h
    split at h
    · exact nomatch h
    · split at h
      · exact nomatch h
      · exact h
  · intro h
    have hlets := hr _ a h
    have hcheck : checkMembers r.fields ms = .ok () := by
      refine checkMembers_eq_ok.mpr fun m hm f hfind => ?_
      have hname : f.name = m.1 := by simpa using List.find?_some hfind
      have hget : ms.get? f.name = some m.2 := hms.get?_eq_some.mpr (hname ▸ hm)
      simpa only [hget, Field.Lets] using hlets f (List.mem_of_find?_eq_some hfind)
    have hmissing : r.fields.find? (fun f => !f.optional && (ms.get? f.name).isNone) = none := by
      refine List.find?_eq_none.mpr fun f hf hlacks => ?_
      have hf := hlets f hf
      cases hget : ms.get? f.name <;> simp_all [Field.Lets]
    rw [read, hcheck]
    simp only [hmissing, h]

theorem checkItems_eq_ok {wanted : String} {length i : Nat} {fields : List Field}
    {items : List Json} :
    checkItems wanted length i fields items = .ok () ↔
      items.length ≤ fields.length ∧ (∀ p ∈ fields.zip items, p.1.check p.2 = .ok ()) ∧
        ∀ f ∈ fields.drop items.length, f.trailing = true := by
  fun_induction checkItems wanted length i fields items with
  | case1 => simp
  | case2 => simp
  | case3 i f fs htrailing ih => simpa [htrailing] using ih
  | case4 i f fs htrailing => simp [htrailing]
  | case5 i f fs v vs _ hcheck ih => simpa [hcheck] using ih
  | case6 i f fs v vs e hcheck => simp [hcheck]

theorem lookup_zip {fields : List Field} {items : List Json} {f : Field} {v : Json}
    (hnodup : (fields.map (·.name)).Nodup) (hmem : (f, v) ∈ fields.zip items) :
    ((fields.map (·.name)).zip items).lookup f.name = some v := by
  induction fields generalizing items with
  | nil => simp at hmem
  | cons g fs ih =>
    cases items with
    | nil => simp at hmem
    | cons w ws =>
      obtain ⟨hnot, hrest⟩ := List.nodup_cons.mp hnodup
      rcases List.mem_cons.mp hmem with heq | hmem
      · cases heq
        simp
      · have hne : f.name ≠ g.name := fun he =>
          hnot (List.mem_map.mpr ⟨f, (List.of_mem_zip hmem).1, he⟩)
        simpa [List.lookup_cons, beq_false_of_ne hne] using ih hrest hmem

/-- **A careful record reads an array by the places of its fields:** there are no more items than
fields, and only trailing fields go without. -/
theorem read_arr {r : Record α} (hr : r.Careful) (hnames : (r.fields.map (·.name)).Nodup)
    {type : String} {items : List Json} {a : α} :
    read type r (.arr items) = .ok a ↔
      items.length ≤ r.fields.length ∧ (∀ f ∈ r.fields.drop items.length, f.trailing = true) ∧
        r.build (fun name => ((r.fields.map (·.name)).zip items).lookup name) = .ok a := by
  simp only [read]
  constructor
  · intro h
    split at h
    · exact nomatch h
    case h_2 hcheck =>
      obtain ⟨hlength, -, htrailing⟩ := checkItems_eq_ok.mp hcheck
      exact ⟨hlength, htrailing, h⟩
  · rintro ⟨hlength, htrailing, h⟩
    have hitems : ∀ p ∈ r.fields.zip items, p.1.check p.2 = .ok () := fun p hp => by
      have hlets := hr _ a h p.1 (List.of_mem_zip hp).1
      rwa [lookup_zip hnames hp] at hlets
    rw [checkItems_eq_ok.mpr ⟨hlength, hitems, htrailing⟩]
    exact h

end Record
end Switchboard
