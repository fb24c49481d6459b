import TransportDeck.Card.Transform
import TransportDeck.Proofs.Checked.Steps
import TransportDeck.Proofs.Number.Expansion

namespace TransportDeck.Checked

open Number

/-- An interpolation that waits for the number after it. -/
structure Pending where
  token : String
  count : Nat
  logarithmic : Bool

def interpolate (start stop : Float) (n : Nat) (logarithmic : Bool) :
    Option (Option (List Float)) := do
  if logarithmic && (start ≤ 0 || stop ≤ 0) then return none
  let steps := Float.ofNat (← add? n 1)
  let points := (List.range n).map fun k =>
    let t := Float.ofNat (k + 1) / steps
    if logarithmic then (start.log + (stop.log - start.log) * t).exp
    else start + (stop - start) * t
  return some points

def settlePending (values : List (Option Float)) (stop : Float) :
    Option Pending → ExceptT CardFault Option (List (Option Float))
  | none => return values
  | some ⟨token, n, logarithmic⟩ => do
    let start ← sound (orFault (.dangling token) values.getLast?.join)
    let points ← sound (orFault (.dangling token) (← step (interpolate start stop n logarithmic)))
    return values ++ points.map some

def applyShorthand (values : List (Option Float)) (token : String) :
    Shorthand → Except CardFault (List (Option Float) × Option Pending)
  | .copies n => do
    let last ← orFault (.dangling token) values.getLast?
    return (values ++ List.replicate n last, none)
  | .linear n => return (values, some ⟨token, n, false⟩)
  | .logarithmic n => return (values, some ⟨token, n, true⟩)
  | .multiple factor => do
    let last ← orFault (.dangling token) values.getLast?.join
    return (values ++ [some (last * factor)], none)
  | .jumps n => return (values ++ List.replicate n none, none)

def expandFrom (values : List (Option Float)) (pending : Option Pending) :
    List String → ExceptT CardFault Option (List (Option Float))
  | [] =>
    match pending with
    | some waiting => throw (.dangling waiting.token)
    | none => return values
  | token :: rest =>
    match readFloat? token with
    | some x => do expandFrom ((← settlePending values x pending) ++ [some x]) none rest
    | none =>
      match pending, Shorthand.read? token with
      | some waiting, _ => throw (.dangling waiting.token)
      | none, none => throw (.number token)
      | none, some shorthand =>
        if maxExpandedLength < min (values.length + shorthand.count) maxWord then
          throw (.tooLong token)
        else do
          let (values, pending) ← sound (applyShorthand values token shorthand)
          expandFrom values pending rest

def expandValues (tokens : List String) : ExceptT CardFault Option (List (Option Float)) :=
  expandFrom [] none tokens

def expandNumbers (tokens : List String) : ExceptT CardFault Option (List Float) := do
  let values ← expandValues tokens
  if values.all Option.isSome then return values.filterMap id else throw .jump

def matrix? : List Float → Option Matrix3
  | [a, b, c, d, e, f, g, h, i] => some ⟨⟨a, b, c⟩, ⟨d, e, f⟩, ⟨g, h, i⟩⟩
  | _ => none

def point? (values : List Float) : Option Vec3 := do
  return ⟨← item? values 0, ← item? values 1, ← item? values 2⟩

def transformOf (number : Nat) (values : List Float) (degrees : Bool) :
    Option (Option Transform) := do
  if !Transform.validLengths.contains values.length then return none
  let rotation ←
    if values.length = 3 then pure none else some <$> matrix? (← slice? values 3 12)
  match values[12]? with
  | none => return some ⟨number, ← point? values, rotation, degrees, 1, .zero⟩
  | some m =>
    match Transform.originFlag? m with
    | none => return none
    | some origin => return some ⟨number, ← point? values, rotation, degrees, origin, .zero⟩

def checkedTransform (number : Nat) (values : List Float) (degrees : Bool) :
    ExceptT CardFault Option Transform := do
  if Transform.validLengths.contains values.length then
    sound (orFault .originFlag (← step (transformOf number values degrees)))
  else throw (.transformLength values.length)

section Expansion

variable {values : List (Option Float)} {token : String} {rest : List String}

/-- A shorthand that is no copy, no multiple and no jump waits for the next number, which then settles
it. -/
theorem waiting_cases {shorthand : Shorthand} (hcopies : ∀ n, shorthand ≠ .copies n)
    (hmultiple : ∀ x, shorthand ≠ .multiple x) (hjumps : ∀ n, shorthand ≠ .jumps n)
    (hcount : shorthand.count ≤ maxExpandedLength) :
    ∃ logarithmic,
      (∀ values token, applyShorthand values token shorthand =
        .ok (values, some ⟨token, shorthand.count, logarithmic⟩)) ∧
      ∀ start stop, interpolate start stop shorthand.count logarithmic =
        some (shorthand.between? start stop) := by
  have hnext {n : Nat} (hn : n ≤ maxExpandedLength) : add? n 1 = some (n + 1) :=
    add?_eq (by simp only [maxExpandedLength, maxWord] at *; omega)
  cases shorthand with
  | copies n => exact absurd rfl (hcopies n)
  | multiple x => exact absurd rfl (hmultiple x)
  | jumps n => exact absurd rfl (hjumps n)
  | linear n =>
    refine ⟨false, fun _ _ => rfl, fun start stop => ?_⟩
    have hadd : add? n 1 = some (n + 1) := hnext hcount
    simp [interpolate, hadd, Shorthand.between?, Shorthand.count, linearPoints]
  | logarithmic n =>
    refine ⟨true, fun _ _ => rfl, fun start stop => ?_⟩
    have hadd : add? n 1 = some (n + 1) := hnext hcount
    unfold interpolate Shorthand.between?
    by_cases hpositive : start ≤ 0 || stop ≤ 0
    · simp [hpositive]
    · simp [hpositive, hadd, Shorthand.count, logarithmicPoints]

theorem expandFrom_number {x : Float} (h : readFloat? token = some x) (pending : Option Pending) :
    expandFrom values pending (token :: rest) =
      settlePending values x pending >>= fun values => expandFrom (values ++ [some x]) none rest := by
  simp only [expandFrom, h]

theorem expandFrom_shorthand {shorthand : Shorthand} (hfloat : readFloat? token = none)
    (hread : Shorthand.read? token = some shorthand)
    (hcount : ¬ maxExpandedLength < values.length + shorthand.count) :
    expandFrom values none (token :: rest) =
      sound (applyShorthand values token shorthand) >>= fun (values, pending) =>
        expandFrom values pending rest := by
  have hshort : ¬ maxExpandedLength < min (values.length + shorthand.count) maxWord := by
    omega
  simp only [expandFrom, hfloat, hread, if_neg hshort]

/-- An interpolation is put off until the number after it, and counts for the points that it has then. -/
theorem expandFrom_interpolation {shorthand : Shorthand} (hfloat : readFloat? token = none)
    (hread : Shorthand.read? token = some shorthand)
    (hcount : ¬ maxExpandedLength < values.length + shorthand.count)
    (hcopies : ∀ n, shorthand ≠ .copies n) (hmultiple : ∀ x, shorthand ≠ .multiple x)
    (hjumps : ∀ n, shorthand ≠ .jumps n) (rest : List String) :
    ∃ waiting, waiting.token = token ∧
      expandFrom values none (token :: rest) = expandFrom values (some waiting) rest ∧
      ∀ start stop, interpolate start stop waiting.count waiting.logarithmic =
        some (shorthand.between? start stop) := by
  obtain ⟨logarithmic, happly, hpoints⟩ := waiting_cases hcopies hmultiple hjumps (by omega)
  refine ⟨⟨token, shorthand.count, logarithmic⟩, rfl, ?_, hpoints⟩
  rw [expandFrom_shorthand hfloat hread hcount, happly, sound_ok, pure_bind]

theorem expandFrom_waiting (waiting : Pending) (hnext : ∀ next ∈ rest.head?, readFloat? next = none) :
    expandFrom values (some waiting) rest = throw (.dangling waiting.token) := by
  cases rest with
  | nil => rfl
  | cons next rest => simp only [expandFrom, hnext next rfl]

/-- A copy needs an entry before it, and every other shorthand that is no jump a number. -/
theorem expandFrom_unstarted {shorthand : Shorthand} (hfloat : readFloat? token = none)
    (hread : Shorthand.read? token = some shorthand)
    (hcount : ¬ maxExpandedLength < values.length + shorthand.count)
    (hjumps : ∀ n, shorthand ≠ .jumps n)
    (hcopies : ∀ n entry, shorthand = .copies n → values.getLast? ≠ some entry)
    (hstart : ∀ start, values.getLast? ≠ some (some start)) :
    expandFrom values none (token :: rest) = throw (.dangling token) := by
  have hjoin : values.getLast?.join = none := by
    cases hlast : values.getLast? with
    | none => rfl
    | some entry =>
      cases entry with
      | none => rfl
      | some start => exact absurd hlast (hstart start)
  by_cases hcopy : ∃ n, shorthand = .copies n
  · obtain ⟨n, rfl⟩ := hcopy
    have hlast : values.getLast? = none := Option.eq_none_iff_forall_ne_some.mpr fun entry =>
      hcopies n entry rfl
    rw [expandFrom_shorthand hfloat hread hcount, applyShorthand, hlast]
    rfl
  by_cases hfactor : ∃ x, shorthand = .multiple x
  · obtain ⟨x, rfl⟩ := hfactor
    rw [expandFrom_shorthand hfloat hread hcount, applyShorthand, hjoin]
    rfl
  -- an interpolation waits for the next number and finds then that it has no start
  obtain ⟨waiting, rfl, hwaits, -⟩ := expandFrom_interpolation hfloat hread hcount
    (fun n h => hcopy ⟨n, h⟩) (fun x h => hfactor ⟨x, h⟩) hjumps rest
  rw [hwaits]
  by_cases hnext : ∀ next ∈ rest.head?, readFloat? next = none
  · exact expandFrom_waiting _ hnext
  · simp only [not_forall] at hnext
    obtain ⟨next, hhead, hnumber⟩ := hnext
    obtain ⟨after, rfl⟩ := List.head?_eq_some_iff.mp hhead
    obtain ⟨x, hx⟩ := Option.ne_none_iff_exists'.mp hnumber
    simp [expandFrom_number hx, settlePending, hjoin, orFault]

/-- The entries read one by one are those of the list, after the entries that stand before it. -/
theorem expandFrom_eq {produced : Nat} {last : Option (Option Float)} {tokens : List String}
    (hproduced : values.length = produced) (hlast : values.getLast? = last) :
    expandFrom values none tokens =
      (values ++ ·) <$> sound (Number.expandFrom produced last tokens) := by
  fun_induction Number.expandFrom produced last tokens generalizing values with
  | case1 produced last => simp [expandFrom]
  | case2 produced last token rest x hfloat ih =>
    rw [expandFrom_number hfloat, settlePending, pure_bind, ih (by simp [hproduced]) (by simp)]
    simp
  | case3 produced last token rest hfloat hread => simp only [expandFrom, hfloat, hread]; rfl
  | case4 produced last token rest hfloat shorthand hread hlong =>
    have hlong' : maxExpandedLength < min (values.length + shorthand.count) maxWord := by
      rw [hproduced]
      simp only [maxExpandedLength, maxWord] at *
      omega
    simp only [expandFrom, hfloat, hread, if_pos hlong']
    rfl
  | case5 produced token rest hfloat n entry hread hshort ih =>
    have hcopied : (values ++ List.replicate n entry).getLast? = some entry := by
      rw [getLast?_append_replicate n hlast, ite_self]
    rw [expandFrom_shorthand hfloat hread (hproduced ▸ hshort), applyShorthand, hlast]
    simp [orFault, ih (by simp [hproduced]) hcopied]
  | case6 produced token rest hfloat factor x hread hshort ih =>
    have hlast' : (values ++ [some (x * factor)]).getLast? = some (some (x * factor)) := by simp
    rw [expandFrom_shorthand hfloat hread (hproduced ▸ hshort), applyShorthand, hlast]
    simp [orFault, ih (by simp [hproduced]) hlast']
  | case7 produced last token rest hfloat n hread hshort ih =>
    have hjumped : (values ++ List.replicate n none).getLast? = if n = 0 then last else some none :=
      getLast?_append_replicate n hlast
    rw [expandFrom_shorthand hfloat hread (hproduced ▸ hshort), applyShorthand]
    simp [ih (by simp [hproduced]) hjumped]
  | case8 produced token hfloat shorthand start hcopies hmultiple hjumps hread hshort =>
    obtain ⟨waiting, rfl, hwaits, -⟩ :=
      expandFrom_interpolation hfloat hread (hproduced ▸ hshort) hcopies hmultiple hjumps _
    exact hwaits
  | case9 produced token hfloat shorthand start hcopies hmultiple hjumps next rest hnext hread hshort =>
    obtain ⟨waiting, rfl, hwaits, -⟩ :=
      expandFrom_interpolation hfloat hread (hproduced ▸ hshort) hcopies hmultiple hjumps _
    rw [hwaits]
    exact expandFrom_waiting waiting fun token h => by cases h; exact hnext
  | case10 produced token hfloat shorthand start hcopies hmultiple hjumps next rest stop hnext hbetween
      hread hshort =>
    obtain ⟨waiting, rfl, hwaits, hpoints⟩ :=
      expandFrom_interpolation hfloat hread (hproduced ▸ hshort) hcopies hmultiple hjumps _
    rw [hwaits, expandFrom_number hnext]
    simp [settlePending, hlast, hpoints, hbetween, orFault]
  | case11 produced token hfloat shorthand start hcopies hmultiple hjumps next rest stop hnext points
      hbetween hread hshort ih =>
    obtain ⟨waiting, rfl, hwaits, hpoints⟩ :=
      expandFrom_interpolation hfloat hread (hproduced ▸ hshort) hcopies hmultiple hjumps _
    have hrest := @ih (values ++ points.map some ++ [some stop]) (by simp [hproduced]; omega) (by simp)
    rw [hwaits, expandFrom_number hnext]
    simp [settlePending, hlast, hpoints, hbetween, orFault] at hrest ⊢
    simp [hrest]
  | case12 produced last token rest hfloat shorthand hread hshort hjumps hstart hcopies hmultiple =>
    exact expandFrom_unstarted hfloat hread (hproduced ▸ hshort) hjumps
      (fun n entry hcopy hentry => hcopies n entry hcopy (hlast.symm.trans hentry))
      fun start hnumber => hstart start (hlast.symm.trans hnumber)

theorem expandValues_eq (tokens : List String) :
    expandValues tokens = sound (Number.expandValues tokens) := by
  rw [expandValues, expandFrom_eq rfl rfl, Number.expandValues]
  simp

theorem expandNumbers_eq (tokens : List String) :
    expandNumbers tokens = sound (Number.expandNumbers tokens) := by
  rw [expandNumbers, expandValues_eq, Number.expandNumbers, sound_bind]
  congr 1
  funext values
  split <;> rfl

end Expansion

section Transforms

variable {values : List Float}

theorem transformOf_eq (number : Nat) (values : List Float) (degrees : Bool) :
    transformOf number values degrees = some (Transform.ofValues? number values degrees) := by
  unfold Transform.ofValues?
  split
  · rfl
  · rfl
  · next x y z a b c d e f g h i m =>
    change (match Transform.originFlag? m with | none => _ | some origin => _) =
      some (Option.map _ (Transform.originFlag? m))
    cases Transform.originFlag? m <;> rfl
  · next hthree htwelve hthirteen =>
    have hlength : values.length ∉ Transform.validLengths := by
      intro hvalid
      simp only [Transform.validLengths, List.mem_cons, List.not_mem_nil, or_false] at hvalid
      rcases hvalid with h | h | h
      · match values, h with
        | [x, y, z], _ => exact hthree x y z rfl
      · match values, h with
        | [x, y, z, a, b, c, d, e, f, g, h, i], _ => exact htwelve x y z a b c d e f g h i rfl
      · match values, h with
        | [x, y, z, a, b, c, d, e, f, g, h, i, m], _ =>
          exact hthirteen x y z a b c d e f g h i m rfl
    simp [transformOf, hlength]

theorem checkedTransform_eq (number : Nat) (values : List Float) (degrees : Bool) :
    checkedTransform number values degrees =
      sound (Card.checkedTransform number values degrees) := by
  rw [checkedTransform, transformOf_eq, Card.checkedTransform]
  split <;> rfl

end Transforms

end TransportDeck.Checked
