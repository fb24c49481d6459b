import Mathlib.Data.PFun
import TransportDeck.Number.Word
import TransportDeck.Proofs.Text.Bytes

/-!
Steps that may have no result. A run in `Option` stops where an index or a slice leaves its list,
where a cut falls inside a character, and where a number leaves its word; a loop without an end has
no result either. A run that can also end in a fault puts `Except` into it: a fault is a result.
-/

namespace TransportDeck.Checked

def maxWord : Nat := 18446744073709551615

/-- No collection reaches this length. -/
def lengthLimit : Nat := 9223372036854775808

def word? (n : Nat) : Option Nat :=
  if n ≤ maxWord then some n else none

def add? (m n : Nat) : Option Nat := word? (m + n)

def sub? (m n : Nat) : Option Nat :=
  if n ≤ m then some (m - n) else none

def word32? (n : Nat) : Option Nat :=
  if n ≤ 4294967295 then some n else none

variable {α β ε : Type}

def item? (xs : List α) (n : Nat) : Option α := xs[n]?

def from? (xs : List α) (n : Nat) : Option (List α) :=
  if n ≤ xs.length then some (xs.drop n) else none

def upTo? (xs : List α) (n : Nat) : Option (List α) :=
  if n ≤ xs.length then some (xs.take n) else none

def slice? (xs : List α) (m n : Nat) : Option (List α) :=
  if m ≤ n ∧ n ≤ xs.length then some ((xs.drop m).take (n - m)) else none

/-- The text before byte `n` and the text from it on, if a character starts there or the text ends
there. -/
def cutAt? : List Char → Nat → Option (List Char × List Char)
  | cs, 0 => some ([], cs)
  | [], _ + 1 => none
  | c :: cs, n + 1 =>
    if c.utf8Size ≤ n + 1 then
      (cutAt? cs (n + 1 - c.utf8Size)).map fun (before, after) => (c :: before, after)
    else none

section Steps

variable {m n : Nat} {xs ys : List α}

theorem add?_eq (h : m + n ≤ maxWord) : add? m n = some (m + n) :=
  if_pos h

/-- Two lengths can be added up. -/
theorem add?_of_lt (hm : m < lengthLimit) (hn : n < lengthLimit) : add? m n = some (m + n) :=
  add?_eq (by simp only [lengthLimit, maxWord] at *; omega)

theorem sub?_eq (h : n ≤ m) : sub? m n = some (m - n) :=
  if_pos h

theorem word32?_eq (h : n ≤ 4294967295) : word32? n = some n :=
  if_pos h

theorem from?_eq (h : n ≤ xs.length) : from? xs n = some (xs.drop n) :=
  if_pos h

theorem upTo?_eq (h : n ≤ xs.length) : upTo? xs n = some (xs.take n) :=
  if_pos h

theorem slice?_eq (hmn : m ≤ n) (hn : n ≤ xs.length) :
    slice? xs m n = some ((xs.drop m).take (n - m)) :=
  if_pos ⟨hmn, hn⟩

/-- Where a loop has come to place `n`: the item there, and the rest after it. -/
theorem item?_of_drop {x : α} (h : xs.drop n = x :: ys) :
    n < xs.length ∧ item? xs n = some x ∧ xs.drop (n + 1) = ys := by
  refine ⟨?_, ?_, ?_⟩
  · by_contra hn
    rw [List.drop_eq_nil_of_le (Nat.le_of_not_lt hn)] at h
    cases h
  · rw [item?, ← List.head?_drop, h]
    rfl
  · rw [← List.drop_drop, h]
    rfl

theorem le_length_of_drop_nil (h : xs.drop n = []) : xs.length ≤ n :=
  List.drop_eq_nil_iff.mp h

theorem length_of_drop (h : xs.drop n = ys) (hn : n ≤ xs.length) : n + ys.length = xs.length := by
  rw [← h, List.length_drop, Nat.add_sub_cancel' hn]

/-- A cut after the characters of a text keeps them together. -/
theorem cutAt?_append (before after : List Char) :
    cutAt? (before ++ after) (Text.bytes before) = some (before, after) := by
  induction before with
  | nil => simp [cutAt?, Text.bytes]
  | cons c before ih =>
    have hpos : 0 < c.utf8Size := c.utf8Size_pos
    obtain ⟨k, hk⟩ : ∃ k, c.utf8Size + Text.bytes before = k + 1 :=
      Nat.exists_eq_succ_of_ne_zero (by omega)
    have hrest : k + 1 - c.utf8Size = Text.bytes before := by omega
    rw [Text.bytes_cons, hk, List.cons_append, cutAt?, if_pos (by omega), hrest, ih]
    rfl

/-- A cut leaves out and changes no character. -/
theorem append_of_cutAt? {cs before after : List Char} (h : cutAt? cs n = some (before, after)) :
    before ++ after = cs := by
  induction cs, n using cutAt?.induct generalizing before with
  | case1 cs =>
    simp only [cutAt?, Option.some.injEq, Prod.mk.injEq] at h
    obtain ⟨rfl, rfl⟩ := h
    rfl
  | case2 n => simp [cutAt?] at h
  | case3 c cs n hle ih =>
    rw [cutAt?, if_pos hle] at h
    obtain ⟨⟨start, rest⟩, hcut, heq⟩ := Option.map_eq_some_iff.mp h
    simp only [Prod.mk.injEq] at heq
    obtain ⟨rfl, rfl⟩ := heq
    rw [List.cons_append, ih hcut]
  | case4 c cs n hlt => simp [cutAt?, hlt] at h

end Steps

section Faults

def step (x : Option α) : ExceptT ε Option α := ExceptT.lift x

/-- A reader without steps that stop it, as a run. -/
def sound (x : Except ε α) : ExceptT ε Option α := ExceptT.mk (some x)

@[simp] theorem sound_ok (a : α) : sound (.ok a : Except ε α) = pure a := rfl

@[simp] theorem sound_pure (a : α) : sound (pure a : Except ε α) = pure a := rfl

@[simp] theorem sound_error (e : ε) : sound (.error e : Except ε α) = throw e := rfl

@[simp] theorem sound_throw (e : ε) : sound (throw e : Except ε α) = throw e := rfl

@[simp] theorem sound_bind (x : Except ε α) (k : α → Except ε β) :
    sound (x >>= k) = sound x >>= fun a => sound (k a) := by
  cases x <;> rfl

theorem bind_sound {x : Except ε α} {f : α → ExceptT ε Option β} {k : α → Except ε β}
    (h : ∀ a, f a = sound (k a)) : sound x >>= f = sound (x >>= k) := by
  rw [sound_bind, funext h]

@[simp] theorem sound_map (f : α → β) (x : Except ε α) : sound (f <$> x) = f <$> sound x := by
  cases x <;> rfl

@[simp] theorem run_sound (x : Except ε α) : (sound x).run = some x := rfl

@[simp] theorem step_some (a : α) : (step (some a) : ExceptT ε Option α) = pure a := rfl

/-- A list is read item by item without a stop if every item is. -/
theorem mapM_eq_some {g : α → β} {f : α → Option β} {xs : List α}
    (h : ∀ x ∈ xs, f x = some (g x)) : xs.mapM f = some (xs.map g) := by
  induction xs with
  | nil => rfl
  | cons x xs ih =>
    have hrest := ih fun y hy => h y (List.mem_cons_of_mem x hy)
    rw [List.mapM_cons, h x List.mem_cons_self, hrest]
    rfl

/-- A list is folded without a stop if no step is one. -/
theorem foldlM_eq_some {f : β → α → Option β} {g : β → α → β} {xs : List α}
    (h : ∀ b, ∀ x ∈ xs, f b x = some (g b x)) (b : β) : xs.foldlM f b = some (xs.foldl g b) := by
  induction xs generalizing b with
  | nil => rfl
  | cons x xs ih =>
    have hrest := ih fun b y hy => h b y (List.mem_cons_of_mem x hy)
    rw [List.foldlM_cons, h b x List.mem_cons_self, List.foldl_cons]
    exact hrest (g b x)

end Faults

section Loops

variable {σ : Type}

def turns (turn : σ → Option (β ⊕ σ)) : σ →. β ⊕ σ := fun s => Part.ofOption (turn s)

open Classical in
/-- What a loop comes to from state `s` on. Each turn ends it or leads to the next state; a loop that
goes on for ever comes to nothing. -/
noncomputable def loop (turn : σ → Option (β ⊕ σ)) (s : σ) : Option β :=
  ((turns turn).fix s).toOption

theorem loop_eq (turn : σ → Option (β ⊕ σ)) (s : σ) :
    loop turn s = turn s >>= Sum.elim some (loop turn) := by
  have hmem (t : σ) (b : β) : b ∈ loop turn t ↔ b ∈ (turns turn).fix t := by
    classical exact Part.mem_toOption
  ext b
  rw [← Option.mem_def, hmem, PFun.mem_fix_iff]
  simp only [turns, Part.mem_ofOption]
  rcases turn s with _ | c | t
  · simp
  · simp [eq_comm]
  · simp [← hmem]

def turnOutcome : Except ε (β ⊕ σ) → Except ε β ⊕ σ
  | .error e => .inl (.error e)
  | .ok (.inl b) => .inl (.ok b)
  | .ok (.inr t) => .inr t

noncomputable def loopOr (turn : σ → ExceptT ε Option (β ⊕ σ)) (s : σ) : ExceptT ε Option β :=
  ExceptT.mk (loop (fun s => (turn s).run.map turnOutcome) s)

theorem loopOr_eq (turn : σ → ExceptT ε Option (β ⊕ σ)) (s : σ) :
    loopOr turn s = turn s >>= Sum.elim pure (loopOr turn) := by
  apply ExceptT.ext
  rw [loopOr, ExceptT.run_mk, loop_eq, ExceptT.run_bind]
  rcases (turn s).run with _ | e | b | t <;> rfl

end Loops

end TransportDeck.Checked
