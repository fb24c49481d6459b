import TransportDeck.Card.Data
import TransportDeck.Card.Surface
import TransportDeck.Proofs.Text.OneLine

namespace TransportDeck

namespace CardFault

def quoted : CardFault → List String
  | number s | surfaceTerm s | keywordParticle s | singleValue s _ | fillTrailing s | repeatFirst s
  | repeatTooLong s _ | dangling s | tooLong s | coefficientsMissing s | cardNumber s
  | cardParticle s | modeParticle s | optionValue s | fractionMissing s | atomicNumber _ s | zaid s
  | historyFraction s => [s]
  | _ => []

def QuotesLines (fault : CardFault) : Prop := ∀ s ∈ fault.quoted, OneLine s

theorem QuotesLines.oneLine {fault : CardFault} (h : fault.QuotesLines) : OneLine fault.message := by
  have hwrite (x : Float) : '\n' ∉ (Number.DecimalStyle.plain.write x).toList :=
    Number.oneLine_write _ x
  unfold QuotesLines quoted at h
  unfold message
  cases fault <;> simp_all [OneLine, toString]

end CardFault

def Reads {α : Type} (P : α → Prop) : Except CardFault α → Prop
  | .error fault => fault.QuotesLines
  | .ok a => P a

section Steps

variable {α β : Type} {P : α → Prop} {Q : β → Prop}

theorem Reads.bind {x : Except CardFault α} {f : α → Except CardFault β} (h : Reads P x)
    (hf : ∀ a, P a → Reads Q (f a)) : Reads Q (x >>= f) := by
  cases x with
  | error fault => exact h
  | ok a => exact hf a h

theorem Reads.map {x : Except CardFault α} {f : α → β} (h : Reads P x) (hf : ∀ a, P a → Q (f a)) :
    Reads Q (f <$> x) := by
  cases x with
  | error fault => exact h
  | ok a => exact hf a h

theorem reads_orFault {fault : CardFault} {x : Option α} (h : fault.QuotesLines)
    (hx : ∀ a, x = some a → P a) : Reads P (orFault fault x) := by
  cases x with
  | none => exact h
  | some a => exact hx a rfl

theorem reads_mapM {γ : Type} {f : γ → Except CardFault α} {items : List γ}
    (h : ∀ item ∈ items, Reads P (f item)) : Reads (fun as => ∀ a ∈ as, P a) (items.mapM f) := by
  induction items with
  | nil => exact fun a ha => absurd ha List.not_mem_nil
  | cons item rest ih =>
    rw [List.mapM_cons]
    refine (h item List.mem_cons_self).bind fun a ha => ?_
    refine (ih fun other hother => h other (List.mem_cons_of_mem _ hother)).bind fun as has => ?_
    exact List.forall_mem_cons.mpr ⟨ha, has⟩

theorem quotesLines_failed {results : List (Except CardFault α)} (h : ∀ r ∈ results, Reads P r) :
    ∀ fault ∈ failed results, fault.QuotesLines := by
  intro fault hfault
  obtain ⟨result, hresult, herror⟩ := List.mem_filterMap.mp hfault
  cases result with
  | error found =>
    cases herror
    exact h _ hresult
  | ok value => cases herror

def WithFaults (P : α → Prop) (result : α × List CardFault) : Prop :=
  P result.1 ∧ ∀ fault ∈ result.2, fault.QuotesLines

def CardResult.Lines (P : α → Prop) : CardResult α → Prop
  | .error issue => OneLine issue.message
  | .ok (a, issues) => P a ∧ ∀ issue ∈ issues, OneLine issue.message

theorem oneLine_issue {card : String} {fault : CardFault} (hcard : OneLine card)
    (hfault : fault.QuotesLines) : OneLine (CardIssue.message ⟨some card, fault⟩) := by
  have hmessage := hfault.oneLine
  simp_all [CardIssue.message, OneLine, toString]

theorem lines_onCard {card : String} (hcard : OneLine card)
    {result : Except CardFault (α × List CardFault)} (h : Reads (WithFaults P) result) :
    CardResult.Lines P (onCard card result) := by
  rcases result with fault | ⟨a, faults⟩
  · exact oneLine_issue hcard h
  · refine ⟨h.1, fun issue hissue => ?_⟩
    obtain ⟨fault, hfault, rfl⟩ := List.mem_map.mp hissue
    exact oneLine_issue hcard (h.2 fault hfault)

end Steps

end TransportDeck
