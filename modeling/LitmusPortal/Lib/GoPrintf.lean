import Mathlib.Data.Nat.Notation

/-!
# `fmt.Sprintf` of a format alone

Nothing is there for a verb to print. Every directive comes out as the complaint of the library, but for two percent
signs, which come out as one.
-/

namespace GoPrintf

/-- The number is above a million, and what is left of the format goes with it. -/
def parsenum (num : ℕ) (isnum : Bool) : List Char → Bool × List Char
  | [] => (isnum, [])
  | c :: cs =>
      if c.isDigit then
        if num > 1000000 then (false, []) else parsenum (num * 10 + (c.toNat - '0'.toNat)) true cs
      else (isnum, c :: cs)

/-- An argument index: whether it is a number in brackets, whether it is bad, and what follows. There is no argument
that it could name. -/
def argNumber : List Char → Bool × Bool × List Char
  | '[' :: rest =>
      if rest.length < 2 then (false, true, rest)
      else
        match rest.span (· ≠ ']') with
        | (inside, ']' :: after) => ((parsenum 0 false inside).1 && (parsenum 0 false inside).2.isEmpty, true, after)
        | _ => (false, true, rest)
  | cs => (false, false, cs)

/-- A width or a precision, or the complaint about one that would be an argument. -/
def parseSize (complaint : List Char) : List Char → List Char × List Char
  | '*' :: rest => (complaint, rest)
  | cs => ([], (parsenum 0 false cs).2)

def parsePrecision : List Char → List Char × Bool × Bool × List Char
  | '.' :: rest =>
      let (found, bad, rest) := argNumber rest
      match rest with
      | '*' :: rest => ("%!(BADPREC)".toList, false, bad, rest)
      | cs => ([], found, bad, (parsenum 0 false cs).2)
  | cs => ([], false, false, cs)

/-- What is printed for the directive behind a percent sign, and what is left of the format. -/
def printVerb (format : List Char) : List Char × List Char :=
  let (found, bad, format) := argNumber (format.dropWhile (['#', '0', '+', '-', ' '].contains ·))
  let found := found && format.head? ≠ some '*'
  let (width, format) := parseSize "%!(BADWIDTH)".toList format
  let (precision, foundPrecision, badPrecision, rest) := parsePrecision format
  let found := if format.head? = some '.' then foundPrecision else found
  let (badVerb, format) := if found then (false, rest) else ((argNumber rest).2.1, (argNumber rest).2.2)
  match format with
  | [] => (width ++ precision ++ "%!(NOVERB)".toList, [])
  | '%' :: format => (width ++ precision ++ ['%'], format)
  | verb :: format =>
      let complaint := if bad || badPrecision || badVerb then "(BADINDEX)" else "(MISSING)"
      (width ++ precision ++ ('%' :: '!' :: verb :: complaint.toList), format)

/-- Every directive takes at least a character of the format. -/
def doPrintf : ℕ → List Char → List Char
  | 0, _ => []
  | _, [] => []
  | fuel + 1, c :: format =>
      if c = '%' then
        let (printed, rest) := printVerb format
        printed ++ doPrintf fuel rest
      else c :: doPrintf fuel format

def sprintf (format : String) : String := String.ofList (doPrintf format.toList.length format.toList)

theorem doPrintf_of_not_mem {format : List Char} (h : '%' ∉ format) : doPrintf format.length format = format := by
  induction format with
  | nil => rfl
  | cons c format ih =>
      rw [List.mem_cons, not_or] at h
      rw [List.length_cons, doPrintf, if_neg (Ne.symm h.1), ih h.2]

theorem sprintf_of_not_mem {format : String} (h : '%' ∉ format.toList) : sprintf format = format := by
  rw [sprintf, doPrintf_of_not_mem h, String.ofList_toList]

example : ["50% off", "%5.2d%%", "%[1]d"].map sprintf = ["50%!o(MISSING)ff", "%!d(MISSING)%", "%!d(BADINDEX)"] := by
  decide +kernel

end GoPrintf
