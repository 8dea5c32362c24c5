/-
Requests with numeric parameters, and when the numbers are accepted.

A handler reads a number with `std::from_chars` and looks at the error code only, not at where the number ends. The rules
here say what one parameter of the query adds to the parsing, and what the acceptance of all of them comes to.

- `validated_iff_clean`: what follows for the acceptance of the numbers from what a handler does with them.
- `settles_number`, `settles_text`, `settles_require`: the rules for one parameter.
- `parseUpdate_numbers`: what becomes of a query that may also ask for a reset.
-/
import ControlComponents.Pipeline.SensorHandlers

namespace ControlComponents.Pipeline.Httpserver

open ControlComponents.Algo ControlComponents.Lib ControlComponents.Lib.Numerals

/-! ## Specification -/

/-- a numeric parameter: its key, its type, and where its number goes -/
structure NumericKey (α : Type) where
  key : String
  type : IntType
  number : α → ℤ

/-- the numeric parameters that a query has, with their values -/
def given {α : Type} (keys : List (NumericKey α)) (uri : Uri) (values : Values) : List (NumericKey α × Text) :=
  keys.filterMap fun k => (find uri values k.key).map fun v => (k, uri.content v)

/-- a request with numeric parameters and what became of it -/
structure NumericRequest (α : Type) where
  given : List (NumericKey α × Text)
  /-- nothing else of the request is in the way of its numbers -/
  complete : Prop
  /-- what the handler goes on with once it has parsed the query -/
  asked : Option α
  /-- the configuration is to be reset, and the reset does not itself report `InvalidArg` and change nothing -/
  erases : Prop
  /-- the request has been served by the end of the wait -/
  answered : Prop
  code : StatusCode
  /-- the configuration and its storage are as before -/
  unchanged : Prop

namespace NumericRequest

variable {α : Type} (r : NumericRequest α)

/-- every value is a numeral from its beginning to its end, of a number that fits -/
def Whole : Prop := ∀ p ∈ r.given, ∃ n, Denotes p.1.type p.2 n

/-- the numbers are accepted iff their values are whole numerals, and otherwise the request is refused -/
structure Validated : Prop where
  accepted : r.given ≠ [] → r.complete → (r.asked.isSome = true ↔ r.Whole)
  numbers : ∀ a, r.asked = some a → ∀ p ∈ r.given, Denotes p.1.type p.2 (p.1.number a)
  refused : ¬ r.Whole → r.code = .invalidArg ∧ r.unchanged

/-- one of the values does not begin with a numeral of a number that fits -/
def Unread (given : List (NumericKey α × Text)) : Prop := ∃ p ∈ given, Numerals.fromChars p.1.type p.2 = none

/-- a value that is no whole numeral comes in a request that is refused: for something else, or for a value that does not
even begin with a numeral that fits -/
def Clean : Prop :=
  r.Whole ∨ r.answered ∧ ¬ r.erases ∧ (r.complete → Unread r.given)

/-- the numbers that the values begin with are those of the result -/
def Read (a : α) (given : List (NumericKey α × Text)) : Prop :=
  ∀ p ∈ given, ∃ rest, Numerals.fromChars p.1.type p.2 = some (p.1.number a, rest)

/-- what a handler does with its numeric parameters, if there are any -/
structure Decided : Prop where
  parsed : r.complete →
    (∃ a, r.asked = some a ∧ Read a r.given) ∨ r.asked = none ∧ Unread r.given
  incomplete : ¬ r.complete → r.asked = none
  refused : r.answered → ¬ r.erases → r.asked = none → r.code = .invalidArg ∧ r.unchanged
  unanswered : ¬ r.answered → r.code ≠ .invalidArg
  erased : r.erases → ¬ (r.code = .invalidArg ∧ r.unchanged)

end NumericRequest

/-- `reset=1` is given -/
def AsksReset (uri : Uri) (values : Values) : Prop :=
  ∃ v, find uri values "reset" = some v ∧ shows uri v "1" = true

/-! ## Acceptance -/

namespace NumericRequest

variable {α : Type} {r : NumericRequest α}

theorem whole_of_nil (h : r.given = []) : r.Whole := by
  intro p hp
  rw [h] at hp
  cases hp

theorem validated_of_nil (h : r.given = []) : r.Validated := by
  refine ⟨fun hgiven => absurd h hgiven, fun a _ p hp => ?_, fun hnot => absurd (whole_of_nil h) hnot⟩
  rw [h] at hp
  cases hp

/-- a value that does not begin with a numeral is none -/
theorem not_whole_of_unread (h : Unread r.given) : ¬ r.Whole := by
  obtain ⟨p, hp, hnone⟩ := h
  intro hwhole
  obtain ⟨n, hn⟩ := hwhole p hp
  rw [denotes_iff, hnone] at hn
  cases hn

/-- a whole numeral denotes the number that is read from it -/
theorem denotes_of_read {a : α} (hread : Read a r.given) (hwhole : r.Whole) :
    ∀ p ∈ r.given, Denotes p.1.type p.2 (p.1.number a) := by
  intro p hp
  obtain ⟨n, hn⟩ := hwhole p hp
  obtain ⟨rest, hrest⟩ := hread p hp
  have heq : n = p.1.number a := by
    rw [denotes_iff, hrest] at hn
    exact (Prod.mk.inj (Option.some.inj hn)).1.symm
  exact heq ▸ hn

theorem Decided.validated (h : r.Decided) (hwhole : r.Whole) : r.Validated := by
  refine ⟨fun _ hcomplete => ?_, fun a ha p hp => ?_, fun hnot => absurd hwhole hnot⟩
  · rcases h.parsed hcomplete with ⟨a, ha, -⟩ | ⟨-, hunread⟩
    · simp [ha, hwhole]
    · exact absurd hwhole (not_whole_of_unread hunread)
  · by_cases hcomplete : r.complete
    · rcases h.parsed hcomplete with ⟨b, hb, hread⟩ | ⟨hnone, -⟩
      · obtain rfl : a = b := Option.some.inj (ha.symm.trans hb)
        exact denotes_of_read hread hwhole p hp
      · rw [hnone] at ha
        cases ha
    · rw [h.incomplete hcomplete] at ha
      cases ha

/-- a value that does not begin with a numeral stops the parsing -/
theorem Decided.asked_eq_none (h : r.Decided)
    (hunread : r.complete → Unread r.given) : r.asked = none := by
  by_cases hcomplete : r.complete
  · rcases h.parsed hcomplete with ⟨a, -, hread⟩ | ⟨hnone, -⟩
    · obtain ⟨p, hp, hbad⟩ := hunread hcomplete
      obtain ⟨rest, hrest⟩ := hread p hp
      rw [hbad] at hrest
      cases hrest
    · exact hnone
  · exact h.incomplete hcomplete

/-- a request with a value that is no whole numeral -/
theorem Decided.validated_iff (h : r.Decided) (hgiven : r.given ≠ []) (hwhole : ¬ r.Whole) :
    r.Validated ↔ r.Clean := by
  refine ⟨fun hvalid => ?_, ?_⟩
  · obtain ⟨hcode, hsame⟩ := hvalid.refused hwhole
    refine .inr ⟨?_, fun herases => h.erased herases ⟨hcode, hsame⟩, fun hcomplete => ?_⟩
    · by_contra hnot
      exact h.unanswered hnot hcode
    · rcases h.parsed hcomplete with ⟨a, ha, -⟩ | ⟨-, hunread⟩
      · exact absurd ((hvalid.accepted hgiven hcomplete).1 (by simp [ha])) hwhole
      · exact hunread
  · rintro (hall | ⟨hanswered, herases, hunread⟩)
    · exact absurd hall hwhole
    · have hasked := h.asked_eq_none hunread
      refine ⟨?_, ?_, fun _ => h.refused hanswered herases hasked⟩
      · intro _ _
        simp [hasked, hwhole]
      · intro a ha
        rw [hasked] at ha
        cases ha

/-- a request that resets the configuration -/
theorem decided_reset (hasked : r.asked = none) (hcomplete : ¬ r.complete) (hanswered : r.answered)
    (hrefused : r.code = .invalidArg ∧ r.unchanged ↔ ¬ r.erases) : r.Decided where
  parsed h := absurd h hcomplete
  incomplete _ := hasked
  refused _ herases _ := hrefused.2 herases
  unanswered h := absurd hanswered h
  erased herases h := hrefused.1 h herases

/-- a request that is refused -/
theorem decided_refused (hasked : r.asked = none)
    (hunread : r.complete → Unread r.given) (hanswered : r.answered)
    (herases : ¬ r.erases) (hcode : r.code = .invalidArg) (hsame : r.unchanged) : r.Decided where
  parsed h := .inr ⟨hasked, hunread h⟩
  incomplete _ := hasked
  refused _ _ _ := ⟨hcode, hsame⟩
  unanswered h := absurd hanswered h
  erased h := absurd h herases

/-- a request that the handler goes on with -/
theorem decided_accepted {a : α} (hasked : r.asked = some a) (hread : Read a r.given) (hcomplete : r.complete)
    (hanswered : r.answered) (herases : ¬ r.erases) : r.Decided where
  parsed _ := .inl ⟨a, hasked, hread⟩
  incomplete h := absurd hcomplete h
  refused _ _ hnone := absurd (hasked.symm.trans hnone) (Option.some_ne_none a)
  unanswered h := absurd hanswered h
  erased h := absurd h herases

/-- a request that has not been served by the end of the wait -/
theorem Decided.unanswer (h : r.Decided) {answered unchanged : Prop} {code : StatusCode} (hanswered : ¬ answered)
    (hcode : code ≠ .invalidArg) :
    NumericRequest.Decided { r with answered := answered, code := code, unchanged := unchanged } where
  parsed := h.parsed
  incomplete := h.incomplete
  refused hans := absurd hans hanswered
  unanswered _ := hcode
  erased _ hrefused := hcode hrefused.1

/-- **Acceptance.** The numbers are validated iff the request is clean. -/
theorem validated_iff_clean (h : r.given ≠ [] → r.Decided) : r.Validated ↔ r.Clean := by
  by_cases hgiven : r.given = []
  · exact iff_of_true (validated_of_nil hgiven) (.inl (whole_of_nil hgiven))
  · by_cases hwhole : r.Whole
    · exact iff_of_true ((h hgiven).validated hwhole) (.inl hwhole)
    · exact (h hgiven).validated_iff hgiven hwhole

end NumericRequest

/-! ## Parsing -/

section

variable {α β : Type} {uri : Uri} {values : Values}

/-- the number of an unsigned type that was read -/
theorem toNat_ofInt {w : ℕ} {n : ℤ} (h : (IntType.unsigned w).Fits n) : ((BitVec.ofInt w n).toNat : ℤ) = n := by
  obtain ⟨hleast, hgreatest⟩ := h
  simp only [IntType.least, IntType.greatest, IntType.unsigned, Bool.false_eq_true, if_false] at hleast hgreatest
  have hlt : n < 2 ^ w := by linarith
  rw [BitVec.toNat_ofInt, Int.toNat_of_nonneg (Int.emod_nonneg n (by positivity))]
  push_cast
  exact Int.emod_eq_of_lt hleast hlt

/-- the parsing ends with a result that meets the goal and has all the numbers, or at a value that it cannot read -/
def Settles (given : List (NumericKey α × Text)) (result : α → β) (goal : α → Prop) (parsed : Parse β) : Prop :=
  (∃ a, parsed.run = some (.ok (result a)) ∧ goal a ∧ NumericRequest.Read a given) ∨
    parsed.run = some (.error refused) ∧ NumericRequest.Unread given

theorem settles_pure {result : α → β} {goal : α → Prop} {a : α} (h : goal a) :
    Settles [] result goal (pure (result a)) := by
  refine .inl ⟨a, rfl, h, ?_⟩
  intro p hp
  cases hp

theorem run_bind_copy {γ : Type} {v : StringView} (h : Readable uri (some v)) (next : Text → Parse γ) :
    ((copy uri v : Parse Text) >>= next).run = (next (uri.content v)).run := by
  have hcopy : copy uri v = some (uri.content v) := if_pos (h v rfl)
  rw [ExceptT.run_bind, hcopy]
  rfl

/-- an unsigned value is read, or the request is refused -/
theorem parseUnsigned_cases {w : ℕ} {v : StringView} (default : BitVec w) (h : Readable uri (some v)) :
    (∃ n rest, Numerals.fromChars (.unsigned w) (uri.content v) = some (((n : BitVec w).toNat : ℤ), rest) ∧
      (parseUnsigned uri default (some v)).run = some (.ok n)) ∨
    Numerals.fromChars (.unsigned w) (uri.content v) = none ∧
      (parseUnsigned uri default (some v)).run = some (.error refused) := by
  rw [parseUnsigned, run_bind_copy h]
  cases hread : Numerals.fromChars (.unsigned w) (uri.content v) with
  | none => exact .inr ⟨rfl, rfl⟩
  | some read =>
    obtain ⟨number, rest⟩ := read
    obtain ⟨-, -, -, hfits⟩ := numeral_of_fromChars hread
    exact .inl ⟨BitVec.ofInt w number, rest, by rw [toNat_ofInt hfits], rfl⟩

/-- a numeric parameter: the parsing goes on with its number, or with the default if it is not given, or it ends there -/
theorem settles_number {w : ℕ} (k : NumericKey α) {keys : List (NumericKey α)} {result : α → β} {goal : α → Prop}
    {next : BitVec w → Parse β} (htype : k.type = .unsigned w) (hread : Readable uri (find uri values k.key))
    (default : BitVec w)
    (hnext : ∀ n, Settles (given keys uri values) result (fun a => goal a ∧ k.number a = n.toNat) (next n)) :
    Settles (given (k :: keys) uri values) result goal (parseUnsigned uri default (find uri values k.key) >>= next) := by
  cases hfind : find uri values k.key with
  | none =>
    have hgiven : given (k :: keys) uri values = given keys uri values := by
      rw [given, List.filterMap_cons, hfind]
      rfl
    rw [hgiven]
    rcases hnext default with ⟨a, hrun, hgoal, hnumbers⟩ | hstop
    · exact .inl ⟨a, hrun, hgoal.1, hnumbers⟩
    · exact .inr hstop
  | some v =>
    have hgiven : given (k :: keys) uri values = (k, uri.content v) :: given keys uri values := by
      rw [given, List.filterMap_cons, hfind]
      rfl
    rw [hfind] at hread
    rw [hgiven]
    rcases parseUnsigned_cases default hread with ⟨n, rest, htext, hrun⟩ | ⟨htext, hrun⟩
    · have hstep : (parseUnsigned uri default (some v) >>= next).run = (next n).run := by
        rw [ExceptT.run_bind, hrun]
        rfl
      rw [Settles, hstep]
      rcases hnext n with ⟨a, hdone, ⟨hgoal, hnumber⟩, hnumbers⟩ | ⟨hstop, p, hp, hbad⟩
      · refine .inl ⟨a, hdone, hgoal, List.forall_mem_cons.2 ⟨⟨rest, ?_⟩, hnumbers⟩⟩
        rw [htype, htext, hnumber]
      · exact .inr ⟨hstop, p, List.mem_cons_of_mem _ hp, hbad⟩
    · refine .inr ⟨?_, (k, uri.content v), List.mem_cons_self, by rw [htype, htext]⟩
      rw [ExceptT.run_bind, hrun]
      rfl

/-- a parameter that is a text -/
theorem settles_text {key : String} {ps : List (NumericKey α × Text)} {result : α → β} {goal : α → Prop}
    {next : CString → Parse β} (hread : Readable uri (find uri values key)) (default : CString)
    (hnext : ∀ text, Settles ps result goal (next text)) :
    Settles ps result goal (parseText uri default (find uri values key) >>= next) := by
  cases hfind : find uri values key with
  | none => exact hnext default
  | some v =>
    rw [hfind] at hread
    have hstep : (parseText uri default (some v) >>= next).run = (next (.ofBuffer (uri.content v))).run := by
      rw [ExceptT.run_bind, parseText, run_bind_copy hread]
      rfl
    rw [Settles, hstep]
    exact hnext _

/-- a value that is there -/
theorem settles_require {ps : List (NumericKey α × Text)} {result : α → β} {goal : α → Prop} {key : String}
    {next : StringView → Parse β} (hfind : find uri values key ≠ none)
    (hnext : ∀ v, Settles ps result goal (next v)) : Settles ps result goal (require uri values key >>= next) := by
  obtain ⟨v, hv⟩ := Option.ne_none_iff_exists'.1 hfind
  have hstep : require uri values key >>= next = next v := by
    rw [require, hv]
    rfl
  rw [hstep]
  exact hnext v

/-- a value that is missing, or another one behind it -/
theorem refused_require {key : String} {next : StringView → Parse β}
    (hnext : find uri values key ≠ none → ∀ v, (next v).run = some (.error refused)) :
    (require uri values key >>= next).run = some (.error refused) := by
  cases hfind : find uri values key with
  | none =>
    rw [require, hfind]
    rfl
  | some v =>
    rw [require, hfind]
    exact hnext (by simp [hfind]) v

/-- a byte is an unsigned number like any other -/
theorem fromChars_byte (text : Text) :
    fromChars text = (Numerals.fromChars (.unsigned 8) text).map fun read => BitVec.ofInt 8 read.1 := by
  have hsign : Numerals.fromSign (.unsigned 8) text = (false, text) := by
    rcases fromSign_cases (.unsigned 8) text with hplain | ⟨_, hsigned, -, -⟩
    · exact hplain
    · cases hsigned
  have hfits (n : ℕ) : (IntType.unsigned 8).Fits n ↔ n < 256 := by
    simp only [IntType.Fits, IntType.least, IntType.greatest, IntType.unsigned, Bool.false_eq_true, if_false]
    omega
  have hbyte : fromChars text =
      if text.takeWhile Format.isDigit = [] ∨ 256 ≤ Format.value (text.takeWhile Format.isDigit) then none
      else some (BitVec.ofNat 8 (Format.value (text.takeWhile Format.isDigit))) := rfl
  rw [hbyte, Numerals.fromChars, hsign, Numerals.fromDigits]
  simp only [signed, Bool.false_eq_true, if_false, hfits, not_lt]
  split_ifs
  · rfl
  · exact congrArg some (BitVec.ofInt_natCast 8 _).symm

theorem parseNumber_eq (default : Byte) (found : Option StringView) :
    parseNumber uri default found = parseUnsigned uri default found := by
  cases found with
  | none => rfl
  | some v =>
    simp only [parseNumber, parseUnsigned, fromChars_byte]
    congr 1
    funext text
    cases Numerals.fromChars (.unsigned 8) text <;> rfl

/-- a query asks for a reset, or is refused, for its `reset` or for a number, or it asks for settings -/
theorem parseUpdate_numbers (uri : Uri) (values : Values) {settings : Parse β} {ps : List (NumericKey α × Text)}
    {result : α → β} (hsettles : Settles ps result (fun _ => True) settings) :
    (AsksReset uri values ∧ find uri values "reset" ≠ none ∧
      (parseUpdate uri values settings).run = some (.ok .reset)) ∨
    (¬ AsksReset uri values ∧ (parseUpdate uri values settings).run = some (.error refused) ∧
      (find uri values "reset" = none → NumericRequest.Unread ps)) ∨
    (find uri values "reset" = none ∧ ¬ AsksReset uri values ∧
      ∃ a, (parseUpdate uri values settings).run = some (.ok (.configure (result a))) ∧ NumericRequest.Read a ps) := by
  cases hreset : find uri values "reset" with
  | some v =>
    have hparse : parseUpdate uri values settings = if shows uri v "1" then pure .reset else throw refused := by
      simp only [parseUpdate, hreset]
    rw [hparse]
    by_cases hone : shows uri v "1" = true
    · refine .inl ⟨⟨v, hreset, hone⟩, Option.some_ne_none v, ?_⟩
      rw [if_pos hone]
      rfl
    · refine .inr (.inl ⟨?_, ?_, fun hnone => absurd hnone (Option.some_ne_none v)⟩)
      · rintro ⟨v', hv', hone'⟩
        cases hreset.symm.trans hv'
        exact hone hone'
      · rw [if_neg hone]
        rfl
  | none =>
    have hasks : ¬ AsksReset uri values := by
      rintro ⟨v, hv, -⟩
      rw [hreset] at hv
      cases hv
    have hparse : parseUpdate uri values settings = settings >>= fun a => pure (.configure a) := by
      simp only [parseUpdate, hreset]
    rw [hparse]
    rcases hsettles with ⟨a, hrun, -, hread⟩ | ⟨hrun, hunread⟩
    · refine .inr (.inr ⟨rfl, hasks, a, ?_, hread⟩)
      rw [ExceptT.run_bind, hrun]
      rfl
    · refine .inr (.inl ⟨hasks, ?_, fun _ => hunread⟩)
      rw [ExceptT.run_bind, hrun]
      rfl

end

end ControlComponents.Pipeline.Httpserver
