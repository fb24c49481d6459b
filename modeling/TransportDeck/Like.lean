import TransportDeck.Finding
import TransportDeck.Number.Notation

/-!
Cells written like another cell. Such a cell is followed from base to base down to a full
definition; the parameters along the way are laid over each other, so that the cell nearest to the
start wins, and then the material and density that the uppermost values ask for are put in.
-/

namespace TransportDeck

open Number

inductive LikeChain
  /-- To a full definition, over cells that are listed from it upwards. -/
  | complete (chain : List Cell) (root : Cell)
  /-- To a number that no cell has. -/
  | missing (number : Nat)
  /-- Back to a cell on the way. -/
  | loop (numbers : List Nat)

/-- Follows bases from `number` on, through cells that are not yet in `chain`. -/
def followLike (pool chain : List Cell) (number : Nat) : LikeChain :=
  match _h : pool.find? fun c => c.number == number with
  | none =>
    -- a number on the way has left the pool together with its cell
    if chain.any fun c => c.number == number then
      .loop ((chain.map (·.number)).reverse ++ [number])
    else .missing number
  | some cell =>
    match cell.like with
    | none => .complete chain cell
    | some base => followLike (pool.eraseP fun c => c.number == number) (cell :: chain) base
termination_by pool.length
decreasing_by
  have hm := List.mem_of_find?_eq_some _h
  have hp := List.find?_some _h
  rw [List.length_eraseP_of_mem hm hp]
  exact Nat.sub_lt (List.length_pos_of_mem hm) Nat.one_pos

/-- Lays a cell over its base: the name is its own, and so are the parameters it sets. -/
def Cell.overBase (base cell : Cell) : Cell :=
  { base with
    number := cell.number
    span := cell.span
    like := cell.like
    params := base.params.overlay cell.params }

def isOverride (keyword : String × List String) : Bool :=
  keyword.1 == "mat" || keyword.1 == "rho"

def Cell.applyOverride (c : Cell) (keyword : String × List String) : Except CardFault Cell :=
  match keyword.2 with
  | [value] =>
    if keyword.1 = "mat" then
      match readCardinal? value with
      | some m => .ok { c with material := m, density := if m = 0 then none else c.density }
      | none => .error (.number value)
    else
      match readFloat? value with
      | some density => .ok { c with density := some density }
      | none => .error (.number value)
  | values => .error (.singleValue keyword.1 values.length)

def Cell.applyOverrides (c : Cell) : List (String × List String) → Cell × List CardFault
  | [] => (c, [])
  | keyword :: rest =>
    match c.applyOverride keyword with
    | .ok changed => changed.applyOverrides rest
    | .error fault =>
      let (result, faults) := c.applyOverrides rest
      (result, fault :: faults)

def Cell.settle (c : Cell) : Cell × List CardFault :=
  let kept := c.params.other.filter fun keyword => !isOverride keyword
  let (result, faults) :=
    Cell.applyOverrides { c with params := { c.params with other := kept } }
      (c.params.other.filter isOverride)
  if result.material != 0 && result.density.isNone then
    (result, faults ++ [.overrideDensity result.material])
  else (result, faults)

/-- The full definition of a cell among the given ones, with what is reported about it. A cell
whose bases lead nowhere stays as it is. -/
def Cell.expand (cells : List Cell) (c : Cell) : Cell × List Diagnostic :=
  match c.like with
  | none => (c, [])
  | some _ =>
    match followLike cells [] c.number with
    | .complete chain root =>
      let (result, faults) := (chain.foldl Cell.overBase root).settle
      (result, faults.map fun fault => CardIssue.report ⟨some s!"cell {c.number}", fault⟩ c.span)
    | .missing base => (c, [(Finding.likeMissing c.number base).report c.span])
    | .loop chain => (c, [(Finding.likeLoop c.number chain).report c.span])

def expandLike (cells : List Cell) : List Cell × List Diagnostic :=
  let results := cells.map (Cell.expand cells)
  (results.map (·.1), results.flatMap (·.2))

end TransportDeck
