/-!
# Double-precision numbers

Floating-point numbers of 64 bits, reading them from decimal numerals, and writing them: with the
fewest digits that read back as the same number, or rounded to six digits. Everything is exact
arithmetic on natural numbers.
-/

namespace TinyMips

/-- A floating-point number of 64 bits. -/
inductive Binary64 where
  /-- the number `± significand * 2 ^ exponent`, with a significand below `2 ^ 53` and, unless the
  exponent is the least one, not below `2 ^ 52` -/
  | finite (isNegative : Bool) (significand : Nat) (exponent : Int)
  /-- greater than all numbers, or less than all -/
  | infinite (isNegative : Bool)
  /-- not a number -/
  | nan
  deriving DecidableEq, Repr

namespace Binary64

/-- The exponent of the smallest numbers. -/
def leastExponent : Int := -1074

/-- The exponent of the largest numbers. -/
def greatestExponent : Int := 971

/-- A positive fraction `num / den`. -/
structure Fraction where
  /-- the numerator -/
  num : Nat
  /-- the denominator -/
  den : Nat
  deriving DecidableEq, Repr

/-- The fraction times `base ^ exponent`. -/
def Fraction.scale (x : Fraction) (base : Nat) (exponent : Int) : Fraction :=
  if 0 ≤ exponent then ⟨x.num * base.pow exponent.toNat, x.den⟩
  else ⟨x.num, x.den * base.pow (-exponent).toNat⟩

/-- Whether a fraction is less than another. -/
def Fraction.lt (x y : Fraction) : Bool :=
  x.num * y.den < y.num * x.den

/-! ## Reading -/

/-- The natural number nearest to a fraction, the even one if two are as near. -/
def Fraction.round (x : Fraction) : Nat :=
  let n := x.num / x.den
  let twice := 2 * (x.num % x.den)
  if twice < x.den ∨ (twice = x.den ∧ n % 2 = 0) then n else n + 1

/-- The exponent at which a fraction has a significand of 53 bits, or the least exponent. -/
def Fraction.exponent (x : Fraction) : Int :=
  let low : Int := (x.num.log2 : Int) - x.den.log2 - 53
  let exact := if (x.scale 2 (-low)).lt ⟨1 <<< 53, 1⟩ then low else low + 1
  max leastExponent exact

/-- The floating-point number nearest to a fraction, the one with an even significand if two are
as near. -/
def ofFraction (isNegative : Bool) (x : Fraction) : Binary64 :=
  let exponent := x.exponent
  let n := (x.scale 2 (-exponent)).round
  let (significand, exponent) := if n = 1 <<< 53 then (1 <<< 52, exponent + 1) else (n, exponent)
  if exponent ≤ greatestExponent then .finite isNegative significand exponent
  else .infinite isNegative

/-- The floating-point number nearest to `± n * 10 ^ exponent`. Numbers of more than 400 digits
before or after the point are out of reach on either side and are not computed. -/
def ofDecimal (isNegative : Bool) (n : Nat) (exponent : Int) : Binary64 :=
  let magnitude : Int := (Nat.toDigits 10 n).length + exponent
  if n = 0 ∨ magnitude < -400 then .finite isNegative 0 leastExponent
  else if 400 < magnitude then .infinite isNegative
  else ofFraction isNegative (Fraction.scale ⟨n, 1⟩ 10 exponent)

/-! ## Writing -/

/-- The interval of the numbers that are read as a given one. -/
structure Interval where
  /-- the lower end -/
  low : Fraction
  /-- the number itself -/
  mid : Fraction
  /-- the upper end -/
  high : Fraction
  /-- whether the ends belong to it -/
  isClosed : Bool

/-- The interval of a positive number. It is narrower below the least significand of 53 bits, and
its ends belong to it if the significand is even. -/
def Interval.of (significand : Nat) (exponent : Int) : Interval :=
  let quarter (n : Nat) : Fraction := Fraction.scale ⟨n, 1⟩ 2 (exponent - 2)
  let below := if significand = 1 <<< 52 ∧ leastExponent < exponent then 1 else 2
  { low := quarter (4 * significand - below)
    mid := quarter (4 * significand)
    high := quarter (4 * significand + 2)
    isClosed := significand % 2 = 0 }

/-- Whether a number lies in the interval. -/
def Interval.has (i : Interval) (x : Fraction) : Bool :=
  if i.isClosed then !x.lt i.low && !i.high.lt x else i.low.lt x && x.lt i.high

/-- A decimal numeral `digits * 10 ^ exponent`. -/
structure Decimal where
  /-- the digits -/
  digits : Nat
  /-- the place of the last digit -/
  exponent : Int
  deriving DecidableEq, Repr

/-- Of the two multiples of `10 ^ exponent` around the middle of the interval, the one to take:
the nearer if both lie in the interval, and of two equally near the even one. -/
def Interval.onGrid? (i : Interval) (exponent : Int) : Option Decimal :=
  let x := i.mid.scale 10 (-exponent)
  let n := x.num / x.den
  let candidate (n : Nat) : Option Decimal :=
    if i.has (Fraction.scale ⟨n, 1⟩ 10 exponent) then some ⟨n, exponent⟩ else none
  let (first, second) := if x.round = n then (n, n + 1) else (n + 1, n)
  (candidate first).or (candidate second)

/-- The place before the first digit of a number, or one more. -/
def Fraction.magnitude (x : Fraction) : Int :=
  if x.den ≤ x.num then (Nat.toDigits 10 (x.num / x.den)).length
  else 2 - (Nat.toDigits 10 (x.den / x.num)).length

/-- The shortest decimal numeral in the interval, and of those the nearest to the middle. -/
def Interval.shortest (i : Interval) : Decimal :=
  let magnitude := i.mid.magnitude
  ((List.range 20).findSome? fun (n : Nat) => i.onGrid? (magnitude - n)).getD ⟨0, 0⟩

/-- How decimal numerals are written. -/
structure DecimalStyle where
  /-- the first exponent, counted from the first digit, that is written as an exponent -/
  positionalLimit : Int
  /-- what is written after the digits of a whole number -/
  wholeMark : String

/-- The style in which a value is shown: a whole number has a zero after its point. -/
def DecimalStyle.full : DecimalStyle := ⟨16, ".0"⟩

/-- The style of numbers in tables: a whole number has no point. -/
def DecimalStyle.brief : DecimalStyle := ⟨6, ""⟩

/-- The exponents, counted from the first digit, that are written without an exponent. -/
def DecimalStyle.isPositional (style : DecimalStyle) (exponent : Int) : Bool :=
  -4 ≤ exponent && exponent < style.positionalLimit

/-- An exponent with its sign and at least two digits. -/
def exponentText (exponent : Int) : String :=
  let digits := toString exponent.natAbs
  (if exponent < 0 then "e-" else "e+") ++ (if digits.length < 2 then "0" ++ digits else digits)

/-- The text of a decimal numeral, with a point between its digits or an exponent after them. -/
def Decimal.text (style : DecimalStyle) (d : Decimal) : String :=
  let digits := (Nat.toDigits 10 d.digits)
  let exponent : Int := d.exponent + digits.length - 1
  if style.isPositional exponent then
    if exponent < 0 then
      "0." ++ String.ofList (List.replicate (-exponent - 1).toNat '0' ++ digits)
    else if 0 ≤ d.exponent then
      String.ofList (digits ++ List.replicate d.exponent.toNat '0') ++ style.wholeMark
    else
      let (whole, part) := digits.splitAt (exponent.toNat + 1)
      String.ofList whole ++ "." ++ String.ofList part
  else
    match digits with
    | [] => ""
    | [first] => String.ofList [first] ++ exponentText exponent
    | first :: rest => String.ofList (first :: '.' :: rest) ++ exponentText exponent

/-- The decimal numeral without the zeros at its end. -/
def Decimal.trim (d : Decimal) : Decimal :=
  let zeros := ((Nat.toDigits 10 d.digits).reverse.takeWhile (· = '0')).length
  { digits := d.digits / Nat.pow 10 zeros, exponent := d.exponent + zeros }

/-- The place before the first digit of a number. -/
def Fraction.leadingPlace (x : Fraction) : Int :=
  let place := x.magnitude
  if x.lt (Fraction.scale ⟨1, 1⟩ 10 (place - 1)) then place - 1 else place

/-- The nearest decimal numeral of a number of digits, the even one if two are as near. -/
def Fraction.toDecimal (x : Fraction) (digits : Nat) : Decimal :=
  let exponent := x.leadingPlace - digits
  { digits := (x.scale 10 (-exponent)).round, exponent }

/-- The text of a number whose size, unless it is zero, is written by a function. -/
def textBy (zero : String) (write : Nat → Int → String) : Binary64 → String
  | .nan => "nan"
  | .infinite isNegative => if isNegative then "-inf" else "inf"
  | .finite isNegative significand exponent =>
    (if isNegative then "-" else "") ++
      if significand = 0 then zero else write significand exponent

/-- The text of a number, with the fewest digits that read back as the same number. -/
def text : Binary64 → String :=
  textBy "0.0" fun significand exponent =>
    (Interval.of significand exponent).shortest.text .full

/-- The text of a number in a table, with six digits at most. -/
def briefText : Binary64 → String :=
  textBy "0" fun significand exponent =>
    ((Fraction.scale ⟨significand, 1⟩ 2 exponent).toDecimal 6).trim.text .brief

example : (ofDecimal false 1 (-1)).text = "0.1" := by decide +kernel

example : (ofDecimal false 1 15).text = "1000000000000000.0" := by decide +kernel

example : (ofDecimal false 1 16).text = "1e+16" := by decide +kernel

example : (ofDecimal true 5 (-324)).text = "-5e-324" := by decide +kernel

example : (ofDecimal false 1 400).text = "inf" := by decide +kernel

example : (ofDecimal false 1234567 0).briefText = "1.23457e+06" := by decide +kernel

example : (ofDecimal false 1000005 (-1)).briefText = "100000" := by decide +kernel

example : (ofDecimal true 250 (-2)).briefText = "-2.5" := by decide +kernel

end Binary64

end TinyMips
