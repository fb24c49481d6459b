import TransportDeck.Diagnostic
import TransportDeck.Number.Decimal

namespace TransportDeck

open Number (DecimalStyle)

def maxExpandedLength : Nat := 1000000

inductive CardFault
  | number (token : String)
  | cellTooShort
  | likeIncomplete
  | likeWithoutBut
  | densityMissing
  | regionMissing
  | surfaceTerm (token : String)
  | importanceParticle
  | keywordParticle (keyword : String)
  | negativeImportance (value : Float)
  | temperature (value : Float)
  | singleValue (keyword : String) (found : Nat)
  | transformForm
  | transformLength (found : Nat)
  | originFlag
  | fillEmpty
  | fillRanges (found : Nat)
  | fillEntriesMissing
  | fillTrailing (token : String)
  | fillUnclosed
  | fillTransformFirst
  | repeatFirst (token : String)
  | repeatTooLong (token : String) (limit : Nat)
  | dangling (token : String)
  | tooLong (token : String)
  | jump
  | surfaceEmpty
  | mnemonicMissing
  | coefficientsMissing (mnemonic : String)
  | cardNumber (mnemonic : String)
  | cardParticle (name : String)
  | modeParticle (token : String)
  | modeEmpty
  | optionValue (key : String)
  | fractionMissing (token : String)
  | atomicNumber (z : Nat) (token : String)
  | zaid (token : String)
  | materialEmpty
  | historyMissing
  | historyFraction (token : String)
  | sourcePoints (found : Nat)
  | tallyType (digit : Nat)
  | tallyParticle
  | detectorPoints (found : Nat)
  | tallyEmpty
  | overrideDensity (material : Nat)
  deriving DecidableEq

namespace CardFault

def maxAtomicNumber : Nat := 118

def code : CardFault → Code
  | number _ | surfaceTerm _ | negativeImportance _ | temperature _ | originFlag | dangling _
  | tooLong _ | jump | historyFraction _ => .parseNumber
  | fillRanges _ | fillEntriesMissing | fillTransformFirst | repeatFirst _ | repeatTooLong .. =>
    .parseFillArrayCardinality
  | atomicNumber .. | zaid _ => .parseMaterialZaid
  | tallyType _ => .tallyKind
  | _ => .parseTokenCount

def message : CardFault → String
  | number token => s!"invalid number '{token}'"
  | cellTooShort => "cell card needs at least a number and a material"
  | likeIncomplete => "expected 'LIKE m BUT'"
  | likeWithoutBut => "expected 'BUT' after 'LIKE m'"
  | densityMissing => "missing density"
  | regionMissing => "no region given"
  | surfaceTerm token => s!"invalid surface term '{token}'"
  | importanceParticle => "'imp' requires a particle designator"
  | keywordParticle keyword => s!"unknown particle designator in '{keyword}'"
  | negativeImportance value =>
    s!"importance must not be negative, found {DecimalStyle.plain.write value}"
  | temperature value =>
    s!"temperature must be positive, found {DecimalStyle.plain.write value}"
  | singleValue keyword found => s!"'{keyword}' expects one value, found {found}"
  | transformForm => "invalid transform specification"
  | transformLength found => s!"transform expects 3, 12 or 13 entries, found {found}"
  | originFlag => "origin flag 'm' must be 1 or -1"
  | fillEmpty => "'fill' expects a universe"
  | fillRanges found => s!"fill array needs three index ranges, found {found}"
  | fillEntriesMissing => "fill array has no universe entries"
  | fillTrailing token => s!"unexpected '{token}' after fill universe"
  | fillUnclosed => "unclosed '(' in fill array"
  | fillTransformFirst => "transform with no preceding universe"
  | repeatFirst token => s!"repeat '{token}' with no preceding universe"
  | repeatTooLong token limit =>
    s!"repeat '{token}' expands the fill array past {limit} entries"
  | dangling token => s!"dangling shorthand '{token}'"
  | tooLong token => s!"shorthand '{token}' expands past {maxExpandedLength} entries"
  | jump => "'j' is not allowed here"
  | surfaceEmpty => "empty surface card"
  | mnemonicMissing => "missing surface mnemonic"
  | coefficientsMissing mnemonic => s!"no coefficients for '{mnemonic}'"
  | cardNumber mnemonic => s!"'{mnemonic}' requires a number"
  | cardParticle name => s!"unknown particle designator in '{name}'"
  | modeParticle token => s!"unknown particle designator '{token}'"
  | modeEmpty => "no particles given"
  | optionValue key => s!"missing value for '{key}'"
  | fractionMissing token => s!"isotope '{token}' has no fraction"
  | atomicNumber z token => s!"atomic number {z} of '{token}' is outside 1-{maxAtomicNumber}"
  | zaid token => s!"invalid ZAID '{token}'"
  | materialEmpty => "material has no isotopes"
  | historyMissing => "no history count given"
  | historyFraction token => s!"history count must be a whole number, found '{token}'"
  | sourcePoints found => s!"source points need 3 coordinates each, found {found} values"
  | tallyType digit => s!"tally type {digit} is not one of 1, 2, 4, 5, 6, 7, 8"
  | tallyParticle => "tally requires a particle designator"
  | detectorPoints found => s!"detectors need 4 values each, found {found}"
  | tallyEmpty => "tally has no bins"
  | overrideDensity material => s!"material {material} has no density"

end CardFault

structure CardIssue where
  card : Option String
  fault : CardFault
  deriving DecidableEq

namespace CardIssue

def message (issue : CardIssue) : String :=
  match issue.card with
  | some card => s!"{card}: {issue.fault.message}"
  | none => issue.fault.message

def report (issue : CardIssue) (span : Span) : Diagnostic :=
  { code := issue.fault.code, span := some span, message := issue.message }

end CardIssue

/-- A card as read, with the issues of the parts that had to be left out; or the one issue for which
nothing of it could be used. -/
abbrev CardResult (α : Type) := Except CardIssue (α × List CardIssue)

def orFault {α : Type} (fault : CardFault) : Option α → Except CardFault α
  | some a => .ok a
  | none => .error fault

theorem orFault_eq_ok {α : Type} {fault : CardFault} {x : Option α} {a : α} :
    orFault fault x = .ok a ↔ x = some a := by
  cases x <;> simp [orFault]

theorem bind_eq_ok {ε α β : Type} {x : Except ε α} {f : α → Except ε β} {b : β} :
    (x >>= f) = .ok b ↔ ∃ a, x = .ok a ∧ f a = .ok b := by
  cases x <;> simp [bind, Except.bind]

theorem map_eq_ok {ε α β : Type} {x : Except ε α} {f : α → β} {b : β} :
    f <$> x = .ok b ↔ ∃ a, x = .ok a ∧ f a = b := by
  cases x <;> simp [Functor.map, Except.map]

theorem ok_of_toOption {ε α : Type} {x : Except ε α} {a : α} (h : x.toOption = some a) :
    x = .ok a := by
  cases x with
  | error e => cases h
  | ok b => exact congrArg Except.ok (Option.some.inj h)

theorem exists_of_mapM_eq_ok {ε α β : Type} {f : α → Except ε β} {xs : List α} {ys : List β}
    (h : xs.mapM f = .ok ys) : ∀ x ∈ xs, ∃ y, f x = .ok y := by
  induction xs generalizing ys with
  | nil => exact fun x hx => absurd hx List.not_mem_nil
  | cons x xs ih =>
    rw [List.mapM_cons] at h
    obtain ⟨y, hy, h⟩ := bind_eq_ok.mp h
    obtain ⟨rest, hrest, -⟩ := bind_eq_ok.mp h
    exact List.forall_mem_cons.mpr ⟨⟨y, hy⟩, ih hrest⟩

def succeeded {ε α : Type} (results : List (Except ε α)) : List α :=
  results.filterMap fun
    | .ok a => some a
    | .error _ => none

def failed {ε α : Type} (results : List (Except ε α)) : List ε :=
  results.filterMap fun
    | .ok _ => none
    | .error e => some e

def onCard {α : Type} (card : String) : Except CardFault (α × List CardFault) → CardResult α
  | .ok (a, faults) => .ok (a, faults.map fun fault => ⟨some card, fault⟩)
  | .error fault => .error ⟨some card, fault⟩

theorem onCard_eq_ok {α : Type} {card : String} {x : Except CardFault (α × List CardFault)} {a : α}
    {issues : List CardIssue} : onCard card x = .ok (a, issues) ↔
      ∃ faults, x = .ok (a, faults) ∧ issues = faults.map fun fault => ⟨some card, fault⟩ := by
  constructor
  · intro h
    rcases x with fault | ⟨a', faults⟩
    · cases h
    · cases h
      exact ⟨faults, rfl, rfl⟩
  · rintro ⟨faults, rfl, rfl⟩
    rfl

end TransportDeck
