/-! A span of time in its largest unit, as a decimal without zeros at the end. -/

namespace DigestFinder.CommandLine

/-- `n` divided by ten to the power of `places`. -/
def decimalText (n places : Nat) : String :=
  let scale := Nat.pow 10 places
  let digits := Nat.toDigits 10 (n % scale)
  let fraction := List.replicate (places - digits.length) '0' ++ digits
  let kept := (fraction.reverse.dropWhile (· = '0')).reverse
  toString (n / scale) ++
    if n % scale = 0 then "" else "." ++ String.ofList kept

def elapsedText (nanoseconds : Nat) : String :=
  if 1000000000 ≤ nanoseconds then decimalText nanoseconds 9 ++ "s"
  else if 1000000 ≤ nanoseconds then decimalText nanoseconds 6 ++ "ms"
  else if 1000 ≤ nanoseconds then decimalText nanoseconds 3 ++ "µs"
  else toString nanoseconds ++ "ns"

end DigestFinder.CommandLine
