import TransportDeck.Number.Notation

/-!
Machine words. Signed numbers have 64 bits; a step of arithmetic that leaves them has no result.
-/

namespace TransportDeck.Number

def int64? (n : Int) : Option Int :=
  if fitsInt64 n then some n else none

def wrap32 (n : Int) : Int := n.bmod (Nat.pow 2 32)

theorem int64?_of_fits {n : Int} (h : fitsInt64 n = true) : int64? n = some n :=
  if_pos h

theorem wrap32_of_fits {n : Int} (h : fitsInt32 n = true) : wrap32 n = n := by
  simp only [fitsInt32, Bool.and_eq_true, decide_eq_true_eq] at h
  apply Int.bmod_eq_of_le
  · change -4294967296 / 2 ≤ n
    omega
  · change n < (4294967296 + 1) / 2
    omega

end TransportDeck.Number
