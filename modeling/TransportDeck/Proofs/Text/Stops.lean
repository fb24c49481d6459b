import Mathlib.Data.List.TakeWhile

namespace TransportDeck

variable {α : Type} {p : α → Bool}

/-- A property that holds up to some place and not at that place divides a list there. -/
theorem takeWhile_dropWhile_append {front rest : List α} (hfront : ∀ a ∈ front, p a = true)
    (hrest : ∀ a ∈ rest.head?, p a = false) :
    (front ++ rest).takeWhile p = front ∧ (front ++ rest).dropWhile p = rest := by
  rw [List.takeWhile_append_of_pos hfront, List.dropWhile_append_of_pos hfront]
  cases rest with
  | nil => simp
  | cons a rest => simp [hrest a rfl]

/-- What is left starts where the property fails. -/
theorem head?_dropWhile_stops (p : α → Bool) (xs : List α) :
    ∀ a ∈ (xs.dropWhile p).head?, p a = false := by
  intro a ha
  have hstop := List.head?_dropWhile_not p xs
  rw [Option.mem_def.mp ha] at hstop
  exact hstop

theorem takeWhile_append_stop {stop : α} (h : p stop = false) (front rest : List α) :
    (front ++ stop :: rest).takeWhile p = front.takeWhile p := by
  induction front with
  | nil => simp [h]
  | cons a front ih => cases ha : p a <;> simp [ha, ih]

theorem dropWhile_append_stop {stop : α} (h : p stop = false) (front rest : List α) :
    (front ++ stop :: rest).dropWhile p = front.dropWhile p ++ stop :: rest := by
  induction front with
  | nil => simp [h]
  | cons a front ih => cases ha : p a <;> simp [ha, ih]

/-- A list in which the property fails somewhere is divided there, whatever comes after it. -/
theorem takeWhile_dropWhile_append_right {front : List α} (h : front.dropWhile p ≠ []) (back : List α) :
    (front ++ back).takeWhile p = front.takeWhile p ∧
      (front ++ back).dropWhile p = front.dropWhile p ++ back := by
  have hkept : ∀ a ∈ front.takeWhile p, p a = true := fun a ha => List.mem_takeWhile_imp ha
  have hstop : ∀ a ∈ (front.dropWhile p ++ back).head?, p a = false := by
    obtain ⟨stop, rest, hleft⟩ := List.exists_cons_of_ne_nil h
    have hfirst := head?_dropWhile_stops p front
    rw [hleft] at hfirst ⊢
    exact hfirst
  have hdivide := takeWhile_dropWhile_append hkept hstop
  rwa [← List.append_assoc, List.takeWhile_append_dropWhile] at hdivide

end TransportDeck
