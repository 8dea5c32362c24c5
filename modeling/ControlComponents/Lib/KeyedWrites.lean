/-
One logical record kept under several keys of a map, written key by key. Each write is atomic and may fail; the first
failure ends the sequence, so the map is left with a prefix of the writes.

- `putAll`: the interrupted sequence. `putAll_ok_iff` says when the whole sequence gets through,
  `lookup_putAll_of_pending` when its effect is there all the same.
- `lookup_insertAll_of_mem`, `lookup_insertAll_of_notMem`: what a sequence of writes leaves under a key.
- `Keeps`: a property of all entries of a map, which writes of entries that have it keep.
- `Block`: a write that is skipped when its field has not changed, as the fields of a record are saved one by one.
  `putAll_writesOf_split` is the prefix rule for them.

Keys, values and failures are arbitrary types.
-/
import Mathlib.Data.Finmap
import Mathlib.Tactic

namespace ControlComponents.Lib.KeyedWrites

variable {K V E : Type} [DecidableEq K]

/-- a map from keys to values -/
abbrev Map (K V : Type) := Finmap fun _ : K => V

/-- all writes of `ps`, in order -/
def insertAll (s : Map K V) (ps : List (K × V)) : Map K V := ps.foldl (fun t p => t.insert p.1 p.2) s

/-- the writes of `ps` in order, up to the first one that fails -/
def putAll (fails : K → Option E) : List (K × V) → Map K V → Option E × Map K V
  | [], s => (none, s)
  | (k, v) :: ps, s =>
    match fails k with
    | some e => (some e, s)
    | none => putAll fails ps (s.insert k v)

@[simp] theorem insertAll_nil (s : Map K V) : insertAll s [] = s := rfl

@[simp] theorem insertAll_cons (s : Map K V) (k : K) (v : V) (ps : List (K × V)) :
    insertAll s ((k, v) :: ps) = insertAll (s.insert k v) ps := rfl

theorem lookup_insertAll_of_notMem (ps : List (K × V)) (s : Map K V) (k : K) (hk : k ∉ ps.map Prod.fst) :
    (insertAll s ps).lookup k = s.lookup k := by
  induction ps generalizing s with
  | nil => rfl
  | cons p ps ih =>
    obtain ⟨k', v⟩ := p
    simp only [List.map_cons, List.mem_cons, not_or] at hk
    rw [insertAll_cons, ih _ hk.2, Finmap.lookup_insert_of_ne _ hk.1]

/-- a key written once holds what was written under it -/
theorem lookup_insertAll_of_mem (ps : List (K × V)) (s : Map K V) (k : K) (v : V)
    (hnd : (ps.map Prod.fst).Nodup) (hmem : (k, v) ∈ ps) : (insertAll s ps).lookup k = some v := by
  induction ps generalizing s with
  | nil => simp at hmem
  | cons p ps ih =>
    obtain ⟨k', v'⟩ := p
    simp only [List.map_cons, List.nodup_cons] at hnd
    rcases List.mem_cons.1 hmem with h | h
    · cases h
      rw [insertAll_cons, lookup_insertAll_of_notMem _ _ _ hnd.1, Finmap.lookup_insert]
    · rw [insertAll_cons]
      exact ih _ hnd.2 h

/-- a sequence none of whose writes fails goes through whole -/
theorem putAll_of_ok (fails : K → Option E) (ps : List (K × V)) (s : Map K V)
    (h : ∀ p ∈ ps, fails p.1 = none) : putAll fails ps s = (none, insertAll s ps) := by
  induction ps generalizing s with
  | nil => rfl
  | cons p ps ih =>
    obtain ⟨k, v⟩ := p
    have hk : fails k = none := h (k, v) List.mem_cons_self
    simp only [putAll, hk, insertAll_cons]
    exact ih _ fun p hp => h p (List.mem_cons_of_mem _ hp)

/-- the whole sequence goes through iff no write of it fails -/
theorem putAll_ok_iff (fails : K → Option E) (ps : List (K × V)) (s : Map K V) :
    (putAll fails ps s).1 = none ↔ ∀ p ∈ ps, fails p.1 = none := by
  refine ⟨?_, ?_⟩
  · intro h
    induction ps generalizing s with
    | nil => simp
    | cons p ps ih =>
      obtain ⟨k, v⟩ := p
      cases hk : fails k with
      | some e => simp [putAll, hk] at h
      | none =>
        simp only [putAll, hk] at h
        intro q hq
        rcases List.mem_cons.1 hq with rfl | hq
        · exact hk
        · exact ih _ h q hq
  · intro h
    rw [putAll_of_ok fails ps s h]

/-- a sequence reports the first of its failures -/
theorem putAll_fst (fails : K → Option E) (ps : List (K × V)) (s : Map K V) :
    (putAll fails ps s).1 = ps.findSome? fun p => fails p.1 := by
  induction ps generalizing s with
  | nil => rfl
  | cons p ps ih =>
    obtain ⟨k, v⟩ := p
    rw [List.findSome?_cons]
    cases hk : fails k with
    | some e => simp only [putAll, hk]
    | none => simpa only [putAll, hk] using ih _

theorem lookup_putAll_of_notMem (fails : K → Option E) (ps : List (K × V)) (s : Map K V) (k : K)
    (hk : k ∉ ps.map Prod.fst) : (putAll fails ps s).2.lookup k = s.lookup k := by
  induction ps generalizing s with
  | nil => rfl
  | cons p ps ih =>
    obtain ⟨k', v⟩ := p
    simp only [List.map_cons, List.mem_cons, not_or] at hk
    simp only [putAll]
    cases fails k' with
    | some e => rfl
    | none => rw [ih _ hk.2, Finmap.lookup_insert_of_ne _ hk.1]

/-- the writes from the first failing one on -/
def pending (fails : K → Option E) (ps : List (K × V)) : List (K × V) := ps.dropWhile fun p => (fails p.1).isNone

/-- an interrupted sequence whose pending writes would change nothing has had its whole effect -/
theorem lookup_putAll_of_pending (fails : K → Option E) (ps : List (K × V)) (s : Map K V)
    (hnd : (ps.map Prod.fst).Nodup) (h : ∀ p ∈ pending fails ps, s.lookup p.1 = some p.2) (p : K × V) (hp : p ∈ ps) :
    (putAll fails ps s).2.lookup p.1 = some p.2 := by
  induction ps generalizing s with
  | nil => cases hp
  | cons q ps ih =>
    obtain ⟨k, v⟩ := q
    simp only [List.map_cons, List.nodup_cons] at hnd
    cases hk : fails k with
    | some e =>
      simp only [pending, List.dropWhile_cons, hk, Option.isNone_some] at h
      simp only [putAll, hk]
      exact h p hp
    | none =>
      simp only [pending, List.dropWhile_cons, hk, Option.isNone_none, if_true] at h
      simp only [putAll, hk]
      rcases List.mem_cons.1 hp with rfl | hp
      · rw [lookup_putAll_of_notMem fails ps _ k hnd.1, Finmap.lookup_insert]
      · apply ih (s.insert k v) hnd.2 _ hp
        intro q hq
        have hne : q.1 ≠ k := by
          intro heq
          apply hnd.1
          rw [← heq]
          exact List.mem_map_of_mem ((List.dropWhile_sublist _).subset hq)
        rw [Finmap.lookup_insert_of_ne _ hne]
        exact h q hq

/-! ## What all entries have in common -/

/-- every entry of the map has the property -/
def Keeps (P : K → V → Prop) (s : Map K V) : Prop := ∀ k v, s.lookup k = some v → P k v

theorem keeps_empty (P : K → V → Prop) : Keeps P (∅ : Map K V) := by
  intro k v h
  simp at h

theorem Keeps.insert {P : K → V → Prop} {s : Map K V} (hs : Keeps P s) {k : K} {v : V} (h : P k v) :
    Keeps P (s.insert k v) := by
  intro k' v' hlookup
  by_cases hk : k' = k
  · subst hk
    rw [Finmap.lookup_insert, Option.some.injEq] at hlookup
    exact hlookup ▸ h
  · rw [Finmap.lookup_insert_of_ne _ hk] at hlookup
    exact hs k' v' hlookup

theorem Keeps.insertAll {P : K → V → Prop} {s : Map K V} (hs : Keeps P s) {ps : List (K × V)}
    (h : ∀ p ∈ ps, P p.1 p.2) : Keeps P (insertAll s ps) := by
  induction ps generalizing s with
  | nil => exact hs
  | cons p ps ih =>
    obtain ⟨k, v⟩ := p
    rw [insertAll_cons]
    apply ih
    · exact hs.insert (h (k, v) List.mem_cons_self)
    · exact fun q hq => h q (List.mem_cons_of_mem _ hq)

/-! ## Blocks -/

/-- a write that takes place only if its field has changed -/
structure Block (K V : Type) where
  changed : Bool
  key : K
  value : V

/-- the writes a list of blocks asks for -/
def writesOf (bs : List (Block K V)) : List (K × V) := (bs.filter Block.changed).map fun b => (b.key, b.value)

omit [DecidableEq K] in
theorem mem_writesOf {bs : List (Block K V)} {p : K × V} :
    p ∈ writesOf bs ↔ ∃ b ∈ bs, b.changed = true ∧ (b.key, b.value) = p := by
  simp [writesOf, and_assoc]

omit [DecidableEq K] in
theorem nodup_writesOf {bs : List (Block K V)} (hnd : (bs.map Block.key).Nodup) :
    ((writesOf bs).map Prod.fst).Nodup := by
  have hsub : ((writesOf bs).map Prod.fst).Sublist (bs.map Block.key) := by
    simp only [writesOf, List.map_map]
    exact List.Sublist.map _ List.filter_sublist
  exact hnd.sublist hsub

/-- under the key of a block, the first `n` blocks leave its value if it is one of them and changed, and what was there
if not -/
theorem lookup_insertAll_take {bs : List (Block K V)} (hnd : (bs.map Block.key).Nodup) (s : Map K V) (n i : ℕ)
    {b : Block K V} (hb : bs[i]? = some b) :
    (insertAll s (writesOf (bs.take n))).lookup b.key =
      if i < n ∧ b.changed = true then some b.value else s.lookup b.key := by
  have hsub : ((bs.take n).map Block.key).Nodup := hnd.sublist ((List.take_sublist n bs).map _)
  split_ifs with hc
  · have hmem : b ∈ bs.take n := List.mem_of_getElem? ((List.getElem?_take_of_lt hc.1).trans hb)
    exact lookup_insertAll_of_mem _ s _ _ (nodup_writesOf hsub) (mem_writesOf.2 ⟨b, hmem, hc.2, rfl⟩)
  · refine lookup_insertAll_of_notMem _ s _ fun hm => hc ?_
    obtain ⟨p, hp, hpk⟩ := List.mem_map.1 hm
    obtain ⟨b', hb', hc', rfl⟩ := mem_writesOf.1 hp
    obtain ⟨j, hj⟩ := List.getElem?_of_mem hb'
    rw [List.getElem?_take] at hj
    split_ifs at hj with hjn
    -- keys are distinct, so the block that wrote the key is `b` itself
    have hij : (bs.map Block.key)[j]? = (bs.map Block.key)[i]? := by
      rw [List.getElem?_map, List.getElem?_map, hj, hb]
      exact congrArg some hpk
    have hjlt : j < (bs.map Block.key).length := by
      rw [List.length_map]
      exact (List.getElem?_eq_some_iff.1 hj).1
    have heq : j = i := (List.getElem?_inj hjlt hnd).1 hij
    subst heq
    rw [hb, Option.some.injEq] at hj
    exact ⟨hjn, hj ▸ hc'⟩

/-- **Prefix rule for blocks.** An interrupted save stops in a changed block whose write fails; the blocks before it are
saved, those from it on are not. -/
theorem putAll_writesOf_split (fails : K → Option E) (bs : List (Block K V)) (s : Map K V) (e : E)
    (h : (putAll fails (writesOf bs) s).1 = some e) :
    ∃ done b rest, bs = done ++ b :: rest ∧ b.changed = true ∧ fails b.key = some e ∧
      (∀ q ∈ done, q.changed = true → fails q.key = none) ∧
      (putAll fails (writesOf bs) s).2 = insertAll s (writesOf done) := by
  induction bs generalizing s with
  | nil => simp [writesOf, putAll] at h
  | cons b bs ih =>
    cases hc : b.changed with
    | false =>
      have hw : writesOf (b :: bs) = writesOf bs := by simp [writesOf, hc]
      have hw' (cs : List (Block K V)) : writesOf (b :: cs) = writesOf cs := by simp [writesOf, hc]
      rw [hw] at h ⊢
      obtain ⟨done, b', rest, rfl, hb', he, hdone, heq⟩ := ih s h
      refine ⟨b :: done, b', rest, rfl, hb', he, ?_, by rw [heq, hw']⟩
      intro q hq hqc
      rcases List.mem_cons.1 hq with rfl | hq
      · rw [hc] at hqc
        cases hqc
      · exact hdone q hq hqc
    | true =>
      have hw (cs : List (Block K V)) : writesOf (b :: cs) = (b.key, b.value) :: writesOf cs := by
        simp [writesOf, hc]
      rw [hw] at h ⊢
      cases hk : fails b.key with
      | some e' =>
        simp only [putAll, hk, Option.some.injEq] at h
        subst h
        exact ⟨[], b, bs, rfl, hc, hk, by simp, by simp [putAll, hk, writesOf]⟩
      | none =>
        simp only [putAll, hk] at h ⊢
        obtain ⟨done, b', rest, rfl, hb', he, hdone, heq⟩ := ih _ h
        refine ⟨b :: done, b', rest, rfl, hb', he, ?_, by rw [heq, hw, insertAll_cons]⟩
        intro q hq hqc
        rcases List.mem_cons.1 hq with rfl | hq
        · exact hk
        · exact hdone q hq hqc

end ControlComponents.Lib.KeyedWrites
