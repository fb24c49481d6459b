import TransportDeck.Proofs.Card.Fills
import TransportDeck.Proofs.Card.ParameterGroups
import TransportDeck.Proofs.Text.Bytes

namespace TransportDeck

open Number

structure CellParams.IsWord (p : CellParams) : Prop where
  owner : ∀ u ∈ p.signedUniverse, fitsInt32 u = true
  fill : ∀ f ∈ p.fill, f.IsWord

structure CellParams.Within (n : Nat) (p : CellParams) : Prop where
  owner : ∀ u ∈ p.signedUniverse, fitsInt32 u = true
  fill : ∀ f ∈ p.fill, f.Within n

/-- What holds of the values in two layers holds of the one that counts. -/
theorem forall_mem_layers {α : Type} {P : α → Prop} {above below : Option α}
    (habove : ∀ a ∈ above, P a) (hbelow : ∀ a ∈ below, P a) : ∀ a ∈ (above <|> below), P a := by
  intro a ha
  have hlayers : above.or below = some a := Option.orElse_eq_or.symm.trans ha
  rcases Option.or_eq_some_iff.mp hlayers with ha | ⟨_, ha⟩
  · exact habove a ha
  · exact hbelow a ha

namespace CellParams.Within

variable {n : Nat} {p upper lower : CellParams}

theorem isWord (h : p.Within n) : p.IsWord := ⟨h.owner, fun f hf => (h.fill f hf).word⟩

theorem mono {m : Nat} (h : p.Within n) (hle : n ≤ m) : p.Within m :=
  ⟨h.owner, fun f hf => (h.fill f hf).mono hle⟩

theorem empty (n : Nat) : CellParams.Within n {} := ⟨nofun, nofun⟩

/-- Each parameter comes from one of the two layers. -/
theorem overlay (hlower : lower.Within n) (hupper : upper.Within n) :
    (lower.overlay upper).Within n :=
  ⟨forall_mem_layers hupper.owner hlower.owner, forall_mem_layers hupper.fill hlower.fill⟩

end CellParams.Within

namespace Card

theorem length_le_of_mem_groupTokens {ts : List String} {g : String × List String}
    (h : g ∈ groupTokens ts) : g.2.length ≤ ts.length := by
  fun_induction groupTokens ts with
  | case1 => cases h
  | case2 keyword rest ih =>
    have hkept := (List.takeWhile_sublist (fun t => !isKeyword t) (l := rest)).length_le
    have hleft := (List.dropWhile_sublist (fun t => !isKeyword t) (l := rest)).length_le
    rw [List.length_cons]
    rcases List.mem_cons.mp h with rfl | hlater
    · exact Nat.le_succ_of_le hkept
    · have hle := ih hlater
      omega

section Settings

variable {keyword : String} {values ts : List String} {n : Nat}

def Setting.Within (n : Nat) : Setting → Prop
  | inUniverse u => fitsInt32 u = true
  | fill f => f.Within n
  | _ => True

theorem Setting.Within.apply {s : Setting} (h : s.Within n) {p : CellParams} (hp : p.Within n) :
    (s.apply p).Within n := by
  cases s with
  | inUniverse u =>
    exact ⟨fun v hv => Option.some.inj hv ▸ h, hp.fill⟩
  | fill f => exact ⟨hp.owner, fun g hg => Option.some.inj hg ▸ h⟩
  | _ => exact ⟨hp.owner, hp.fill⟩

theorem within_of_gives {s : Setting} (hn : maxExpandedLength + 2 * values.length ≤ n)
    (h : Gives keyword values s) : s.Within n := by
  cases h with
  | inUniverse name number => exact fits_of_readInt32 (orFault_eq_ok.mpr number)
  | fill degrees name read => exact (within_readFill read).mono hn
  | _ => trivial

theorem within_readParams (ts : List String) : (readParams ts).1.Within
    (maxExpandedLength + 2 * (Text.splitTokens ['(', ')'] ts).length) := by
  apply readParams_induction (.empty _)
  intro g hg setting hgives p hp
  have hvalues := length_le_of_mem_groupTokens hg
  have hfilter := List.length_filter_le (· != "=") (Text.splitTokens ['(', ')'] ts)
  exact (within_of_gives (by omega) hgives).apply hp

end Settings

end Card

end TransportDeck
