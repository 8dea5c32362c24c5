/-
Searches on two buses (`ocs_onewire`) that answer alike, except that the operations of the first may fail.

- `BusSimulation`: the answers of the buses to one operation. `scanLoop_simulated`, `scan_simulated`: those to a search.
- `scan_mem`: a code that a search on the ideal bus reports is that of a device.
-/
import ControlComponents.Onewire.Enumeration

namespace ControlComponents.Onewire

open ControlComponents.Lib.BitStrings

variable {β₁ β₂ : Type}

/-- from related states the operations of a search are answered alike and lead to related states, or the first bus fails
with an error and is left in a state with `Q` -/
structure BusSimulation (bus₁ : Bus β₁) (bus₂ : Bus β₂) (fails : Prop) (Q : β₁ → Prop) (R : β₁ → β₂ → Prop) : Prop where
  read : ∀ w b, R w b →
    (fails ∧ (bus₁.readBit w).1 = .error ∧ Q (bus₁.readBit w).2.2) ∨
      ((bus₁.readBit w).1 = (bus₂.readBit b).1 ∧ (bus₁.readBit w).2.1 = (bus₂.readBit b).2.1 ∧
        R (bus₁.readBit w).2.2 (bus₂.readBit b).2.2)
  write : ∀ bit w b, R w b →
    (fails ∧ (bus₁.writeBit bit w).1 = .error ∧ Q (bus₁.writeBit bit w).2) ∨
      ((bus₁.writeBit bit w).1 = (bus₂.writeBit bit b).1 ∧ R (bus₁.writeBit bit w).2 (bus₂.writeBit bit b).2)

/-- the results of a search on both buses: the status, the scanner, the buffer and the bus -/
inductive Simulated {γ : Type} (fails : Prop) (Q : β₁ → Prop) (R : β₁ → β₂ → Prop) :
    Option (StatusCode × RomCodeScanner × γ × β₁) → Option (StatusCode × RomCodeScanner × γ × β₂) → Prop
  | failed {code : StatusCode} {s : RomCodeScanner} {buf : γ} {w : β₁}
    {r : Option (StatusCode × RomCodeScanner × γ × β₂)} (hfails : fails) (hcode : code = .error) (hw : Q w) :
    Simulated fails Q R (some (code, s, buf, w)) r
  | aborted : Simulated fails Q R none none
  | same {code : StatusCode} {s : RomCodeScanner} {buf : γ} {w : β₁} {b : β₂} (h : R w b) :
    Simulated fails Q R (some (code, s, buf, w)) (some (code, s, buf, b))

section

variable {bus₁ : Bus β₁} {bus₂ : Bus β₂} {fails : Prop} {Q : β₁ → Prop} {R : β₁ → β₂ → Prop}

open RomCodeScanner

/-- **One search.** -/
theorem scanLoop_simulated (hsim : BusSimulation bus₁ bus₂ fails Q R) {size : ℕ} (k n : ℕ) (s : RomCodeScanner)
    (buf : Vector Byte size) {w : β₁} {b : β₂} (hw : R w b) :
    Simulated fails Q R (scanLoop bus₁ k n s buf w) (scanLoop bus₂ k n s buf b) := by
  induction k generalizing n s buf w b with
  | zero => exact .same hw
  | succ k ih =>
    simp only [scanLoop]
    have hfirst := hsim.read w b hw
    rcases hread₁ : bus₁.readBit w with ⟨code₁, bit₁, w₁⟩
    rcases hread₂ : bus₂.readBit b with ⟨code₂, bit₂, b₁⟩
    rw [hread₁, hread₂] at hfirst
    obtain ⟨hfails, hcode, hq⟩ | ⟨hcode, hbit, hw₁⟩ := hfirst
    · dsimp only at hcode
      subst hcode
      exact .failed hfails rfl hq
    · dsimp only at hcode hbit hw₁
      subst hcode hbit
      cases code₁ with
      | ok =>
        simp only
        have hsecond := hsim.read w₁ b₁ hw₁
        rcases hread₁' : bus₁.readBit w₁ with ⟨code₁, bit₂, w₂⟩
        rcases hread₂' : bus₂.readBit b₁ with ⟨code₂, bit₂', b₂⟩
        rw [hread₁', hread₂'] at hsecond
        obtain ⟨hfails, hcode, hq⟩ | ⟨hcode, hbit, hw₂⟩ := hsecond
        · dsimp only at hcode
          subst hcode
          exact .failed hfails rfl hq
        · dsimp only at hcode hbit hw₂
          subst hcode hbit
          cases code₁ with
          | ok =>
            simp only
            split
            · exact .same hw₂
            · rcases hchoice : (if !bit₁ && !bit₂ then s.handleDiscrepancy buf n else some (bit₁ && !bit₂, s)) with
                _ | ⟨bit, s'⟩
              · exact .aborted
              rcases hstore : store buf n bit with _ | buf'
              · simp only [Option.bind_eq_bind, Option.bind_some, hstore]
                exact .aborted
              simp only [Option.bind_eq_bind, Option.bind_some, hstore]
              have hthird := hsim.write bit w₂ b₂ hw₂
              rcases hwrite₁ : bus₁.writeBit bit w₂ with ⟨code₁, w₃⟩
              rcases hwrite₂ : bus₂.writeBit bit b₂ with ⟨code₂, b₃⟩
              rw [hwrite₁, hwrite₂] at hthird
              obtain ⟨hfails, hcode, hq⟩ | ⟨hcode, hw₃⟩ := hthird
              · dsimp only at hcode
                subst hcode
                exact .failed hfails rfl hq
              · dsimp only at hcode hw₃
                subst hcode
                cases code₁ with
                | ok => exact ih (n + 1) s' buf' hw₃
                | _ => exact .same hw₃
          | _ => exact .same hw₂
      | _ => exact .same hw₁

/-- **One scan**, from states that are related as those between scans are -/
theorem scan_simulated (hsim : BusSimulation bus₁ bus₂ fails Q R) {T C : β₁ → β₂ → Prop}
    (hreset : ∀ w b, T w b → (fails ∧ (bus₁.reset w).1 = .error ∧ Q (bus₁.reset w).2) ∨
      ((bus₁.reset w).1 = (bus₂.reset b).1 ∧ T (bus₁.reset w).2 (bus₂.reset b).2 ∧
        ((bus₁.reset w).1 = .ok → C (bus₁.reset w).2 (bus₂.reset b).2)))
    (hcommand : ∀ w b, C w b →
      (fails ∧ (bus₁.writeByte RomCode.searchRom w).1 = .error ∧ Q (bus₁.writeByte RomCode.searchRom w).2) ∨
        ((bus₁.writeByte RomCode.searchRom w).1 = (bus₂.writeByte RomCode.searchRom b).1 ∧
          R (bus₁.writeByte RomCode.searchRom w).2 (bus₂.writeByte RomCode.searchRom b).2))
    (hR : ∀ w b, R w b → T w b) (s : RomCodeScanner) (romCode : RomCode) {w : β₁} {b : β₂}
    (hw : T w b) : Simulated fails Q T (s.scan bus₁ romCode w) (s.scan bus₂ romCode b) := by
  simp only [scan]
  split
  · exact .same hw
  · have hfirst := hreset w b hw
    rcases hreset₁ : bus₁.reset w with ⟨code₁, w₁⟩
    rcases hreset₂ : bus₂.reset b with ⟨code₂, b₁⟩
    rw [hreset₁, hreset₂] at hfirst
    obtain ⟨hfails, hcode, hq⟩ | ⟨hcode, hw₁, hstarted⟩ := hfirst
    · dsimp only at hcode
      subst hcode
      exact .failed hfails rfl hq
    · dsimp only at hcode hw₁
      subst hcode
      cases code₁ with
      | ok =>
        simp only
        have hsecond := hcommand w₁ b₁ (hstarted rfl)
        rcases hbyte₁ : bus₁.writeByte RomCode.searchRom w₁ with ⟨code₁, w₂⟩
        rcases hbyte₂ : bus₂.writeByte RomCode.searchRom b₁ with ⟨code₂, b₂⟩
        rw [hbyte₁, hbyte₂] at hsecond
        obtain ⟨hfails, hcode, hq⟩ | ⟨hcode, hw₂⟩ := hsecond
        · dsimp only at hcode
          subst hcode
          exact .failed hfails rfl hq
        · dsimp only at hcode hw₂
          subst hcode
          cases code₁ with
          | ok =>
            have hloop := scanLoop_simulated hsim 64 0 s romCode.bytes hw₂
            simp only
            generalize scanLoop bus₁ 64 0 s romCode.bytes w₂ = r₁ at hloop
            generalize scanLoop bus₂ 64 0 s romCode.bytes b₂ = r₂ at hloop
            cases hloop with
            | failed hfails hcode hq =>
              subst hcode
              exact .failed hfails rfl hq
            | aborted => exact .aborted
            | same h =>
              simp only [Option.bind_eq_bind, Option.bind_some]
              split_ifs
              · exact .same (hR _ _ h)
              · exact .same (hR _ _ h)
              · exact .same (hR _ _ h)
              · exact .same (hR _ _ h)
          | _ => exact .same (hR _ _ hw₂)
      | _ => exact .same hw₁

end

/-! ## The ideal bus -/

/-- the search along a device ends with the code of a device -/
theorem along_mem {devices : List RomCode} {z : RomCode} (hz : z ∈ devices) (n : ℕ) (hn : n ≤ 64) (s : RomCodeScanner)
    {code : StatusCode} {s' : RomCodeScanner} {buf : Vector Byte 8} {b : IdealBus}
    (h : along devices z n s = some (code, s', buf, b)) : code = .ok ∧ ⟨buf⟩ ∈ devices := by
  induction hk : 64 - n generalizing n z s with
  | zero =>
    obtain rfl : n = 64 := by omega
    rw [along_end, Option.some.injEq, Prod.mk.injEq, Prod.mk.injEq, Prod.mk.injEq] at h
    obtain ⟨rfl, -, rfl, -⟩ := h
    exact ⟨rfl, hz⟩
  | succ k ih =>
    have hlt : n < 64 := by omega
    by_cases hconf : Conflict RomCode.bit devices z n
    · rcases hchoice : s.handleDiscrepancy (firstBits z n) n with _ | ⟨bit, s₁⟩
      · rw [along_assert hz hlt hconf hchoice] at h
        cases h
      · obtain ⟨d, hd, hagree, rfl⟩ := hconf.exists_bit hz bit
        rw [along_conflict hz hlt hconf hagree hchoice] at h
        exact ih hd (n + 1) hlt s₁ h (by omega)
    · rw [along_free hz hlt hconf] at h
      exact ih hz (n + 1) hlt s h (by omega)

/-- **What a scan reports** is the code of a device, and valid. -/
theorem scan_mem {devices : List RomCode} {s s' : RomCodeScanner} {romCode : RomCode} {b b' : IdealBus}
    (h : s.scan (idealBus devices) .new b = some (.ok, s', romCode, b')) : romCode ∈ devices ∧ romCode.valid = true := by
  have hs : s.finished = false := by
    by_contra hfinished
    rw [RomCodeScanner.scan, if_pos (by simpa using hfinished)] at h
    cases h
  rcases hdevices : devices with _ | ⟨z, rest⟩
  · subst hdevices
    simp [RomCodeScanner.scan, hs, idealBus] at h
  · have hz : z ∈ devices := hdevices ▸ List.mem_cons_self
    rw [← hdevices]
    rw [scan_eq hz hs] at h
    obtain ⟨⟨code, s₁, buf, b₁⟩, halong, h⟩ := Option.bind_eq_some_iff.1 h
    obtain ⟨rfl, hmem⟩ := along_mem hz 0 (by decide) s halong
    simp only [ne_eq, not_true_eq_false, if_false] at h
    split_ifs at h with hvalid
    · cases h
    · simp only [Option.some.injEq, Prod.mk.injEq] at h
      obtain ⟨-, -, rfl, -⟩ := h
      exact ⟨hmem, by simpa using hvalid⟩

end ControlComponents.Onewire
