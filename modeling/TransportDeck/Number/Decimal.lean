import TransportDeck.Number.Shortest

namespace TransportDeck.Number

structure DecimalStyle where
  /-- The exponents of the leading digit that are spelled out with a decimal point. -/
  spelledOut : Int → Bool
  /-- Whether whole numbers end in `.0`. -/
  pointZero : Bool
  tie : Tie

/-- Reports spell numbers out from `0.00001` to sixteen whole digits, and mark floating point
numbers as such by `.0` or an exponent. -/
def DecimalStyle.report : DecimalStyle :=
  ⟨fun e => -5 ≤ e && e ≤ 15, true, .toEven⟩

def DecimalStyle.plain : DecimalStyle :=
  ⟨fun _ => true, false, .upward⟩

def positional (pointZero : Bool) (digits : List Char) (lead : Int) : List Char :=
  if lead < 0 then '0' :: '.' :: (List.replicate (-lead - 1).toNat '0' ++ digits)
  else
    let whole := lead.toNat + 1
    if digits.length ≤ whole then
      digits ++ List.replicate (whole - digits.length) '0' ++ if pointZero then ['.', '0'] else []
    else digits.take whole ++ '.' :: digits.drop whole

def pointed : List Char → List Char
  | d :: e :: rest => d :: '.' :: e :: rest
  | digits => digits

def decimalDigits (n : Nat) : List Char :=
  Nat.toDigits 10 n

def exponentText (pad : Nat) (e : Int) : List Char :=
  let digits := decimalDigits e.natAbs
  'e' :: (if e < 0 then '-' else '+') :: (List.replicate (pad - digits.length) '0' ++ digits)

def DecimalStyle.magnitude (style : DecimalStyle) (b : Binary) : List Char :=
  let decimal := b.rounding.shortest style.tie
  let all := decimalDigits decimal.digits
  let lead := decimal.exponent + all.length - 1
  let digits := (all.reverse.dropWhile (· == '0')).reverse
  if style.spelledOut lead then positional style.pointZero digits lead
  else pointed digits ++ exponentText 1 lead

def signed (negative : Bool) (magnitude : List Char) : String :=
  String.ofList (if negative then '-' :: magnitude else magnitude)

def DecimalStyle.write (style : DecimalStyle) (x : Float) : String :=
  match parts x with
  | .nan => "NaN"
  | .infinite negative => signed negative ['i', 'n', 'f']
  | .finite negative b =>
    signed negative (if b.mantissa = 0 then positional style.pointZero ['0'] 0
      else style.magnitude b)

def roundHalfEven (n d : Nat) : Nat :=
  let q := n / d
  let r := n % d
  if 2 * r < d then q else if d < 2 * r then q + 1 else q + q % 2

/-- The `precision + 1` leading digits of a positive magnitude and the exponent of the first. -/
def Binary.leadingDigits (b : Binary) (precision : Nat) : Nat × Int :=
  let n := b.mantissa * Nat.pow 2 b.exponent.toNat
  let d := Nat.pow 2 (-b.exponent).toNat
  let lead := leadingExponent n d
  let exponent := lead - precision
  let digits := roundHalfEven (n * Nat.pow 10 (-exponent).toNat) (d * Nat.pow 10 exponent.toNat)
  if digits = Nat.pow 10 (precision + 1) then (Nat.pow 10 precision, lead + 1) else (digits, lead)

def scientific (precision pad : Nat) (x : Float) : String :=
  match parts x with
  | .nan => "NaN"
  | .infinite negative => signed negative ['i', 'n', 'f']
  | .finite negative b =>
    if b.mantissa = 0 then
      signed negative (pointed (List.replicate (precision + 1) '0') ++ exponentText pad 0)
    else
      let (digits, lead) := b.leadingDigits precision
      signed negative (pointed (decimalDigits digits) ++ exponentText pad lead)

end TransportDeck.Number
