import LitmusPortal.Frontend.MinStep
import Mathlib.Data.List.SplitOn

/-!
# The labels of a query

`setLabelsAndValues` writes labels into the text of a query, where it looks for the name of a label from the first
bracket on, and for the values of a label from the start of the text. `getLabelsAndValues` splits the text between the
brackets at its commas.
-/

namespace LitmusPortal.PromUtils

abbrev Text := List Char

structure QueryLabelValue where
  label : Text
  value : List Text
  deriving DecidableEq, Repr

def labelMatchOperators : List Text := ["==", "!=", "<=", "<", ">=", ">", "=~", "!~", "="].map String.toList

/-! ### Strings of the language -/

def indexOf (pattern : Text) : Text → Option ℕ
  | [] => if pattern = [] then some 0 else none
  | c :: cs => if pattern.isPrefixOf (c :: cs) then some 0 else (indexOf pattern cs).map (· + 1)

def indexFrom (pattern text : Text) (start : ℕ) : Option ℕ := (indexOf pattern (text.drop start)).map (start + ·)

/-- The two indexes may come in either order. -/
def substring (text : Text) (start stop : ℕ) : Text := (text.take (max start stop)).drop (min start stop)

/-- `replace` with a string, which replaces the first match. A dollar sign in the replacement, which would have a meaning
of its own, is none here. -/
def replaceFirst (text pattern new : Text) : Text :=
  match indexOf pattern text with
  | none => text
  | some i => text.take i ++ (new ++ text.drop (i + pattern.length))

def replaceBetween (origin : Text) (startIndex endIndex : ℕ) (insertion : Text) : Text :=
  origin.take startIndex ++ (insertion ++ origin.drop endIndex)

def isLineTerminator (c : Char) : Bool := c == '\n' || c == '\r' || c == '\u2028' || c == '\u2029'

def trim (text : Text) : Text := ((text.dropWhile isWhiteSpace).reverse.dropWhile isWhiteSpace).reverse

/-- What the shortest match of `(.*?)` before the character is. -/
def lazyTo (closing : Char) : Text → Option Text
  | [] => none
  | c :: cs =>
      if c = closing then some []
      else if isLineTerminator c then none
      else (lazyTo closing cs).map (c :: ·)

/-- The first match of `(.*?)` between two characters, without these. -/
def between (opening closing : Char) : Text → Option Text
  | [] => none
  | c :: cs =>
      if c = opening then
        match lazyTo closing cs with
        | some inner => some inner
        | none => between opening closing cs
      else between opening closing cs

/-- The first two parts of a text that is split at a word. -/
def splitInTwo (separator text : Text) : Text × Option Text :=
  match indexOf separator text with
  | none => (text, none)
  | some i =>
      let rest := text.drop (i + separator.length)
      (text.take i, some (rest.take ((indexOf separator rest).getD rest.length)))

/-! ### Reading -/

/-- A piece without the brackets. -/
def adjust (count index : ℕ) (labelValue : Text) : Text :=
  let adjusted := if index = 0 then labelValue.drop 1 else labelValue
  if index = count - 1 then adjusted.take (labelValue.length - 2) else adjusted

def addValues (labelValuesList : List QueryLabelValue) (label : Text) (value : List Text) : List QueryLabelValue :=
  if labelValuesList.any fun labVal => labVal.label == label then
    labelValuesList.map fun labVal =>
      if labVal.label = label then { labVal with value := labVal.value ++ value } else labVal
  else labelValuesList ++ [⟨label, value⟩]

def readLabel (labelValuesList : List QueryLabelValue) (adjusted : Text) : List QueryLabelValue :=
  match labelMatchOperators.find? fun val => (indexOf val adjusted).isSome with
  | none => labelValuesList
  | some splitOperator =>
      match splitInTwo splitOperator (trim adjusted) with
      | (_, none) => labelValuesList
      | (label, some value) =>
          match between '"' '"' value with
          | none => labelValuesList
          | some inner => addValues labelValuesList label (inner.splitOn '|')

def getLabelsAndValues (queryString : Text) : List QueryLabelValue :=
  match between '\x7b' '\x7d' queryString with
  | none => []
  | some inner =>
      let pieces := ('\x7b' :: (inner ++ ['\x7d'])).splitOn ','
      (pieces.zipIdx.map fun piece => adjust pieces.length piece.2 piece.1).foldl readLabel []

/-! ### Writing -/

def joinValues (value : List Text) : Text := ['|'].intercalate value

/-- The values of a label as they are matched. -/
def quoted (value : List Text) : Text := '"' :: (joinValues value ++ ['"'])

def labelText (labVal : QueryLabelValue) : Text := labVal.label ++ (['=', '~'] ++ quoted labVal.value)

/-- Where the brackets go, behind the name of the base query. -/
def insertionIndex (baseQueryString queryString : Text) : ℕ :=
  match indexOf baseQueryString queryString with
  | some i => i + baseQueryString.length
  | none => baseQueryString.length - 1

/-- Whether a bracket goes along with the last label. -/
def graceIndexForBrackets (existing : Text) (matchLabelIndex lastIndexOfVal : ℕ) : ℕ :=
  if (existing[lastIndexOfVal + 1]? = some '\x7d' ∨ existing[lastIndexOfVal + 2]? = some '\x7d') ∧
      0 < matchLabelIndex ∧ existing[matchLabelIndex - 1]? = some '\x7b' then 1 else 0

def removeLabel (existing : Text) (matchLabelIndex lastIndexOfVal : ℕ) : Text :=
  let grace := graceIndexForBrackets existing matchLabelIndex lastIndexOfVal
  let stop := if existing[lastIndexOfVal + 1]? = some ',' then lastIndexOfVal + 2 + grace else lastIndexOfVal + 1 + grace
  replaceFirst existing (substring existing (matchLabelIndex - grace) stop) []

def setLabel (baseQueryString queryString existing : Text) (labVal : QueryLabelValue) : Text :=
  match indexOf ['\x7b'] existing with
  | none =>
      let index := insertionIndex baseQueryString queryString
      existing.take index ++ ('\x7b' :: (labelText labVal ++ '\x7d' :: existing.drop index))
  | some matchBracketIndex =>
      match indexFrom labVal.label existing matchBracketIndex with
      | none =>
          existing.take (matchBracketIndex + 1) ++
            (labelText labVal ++ ',' :: existing.drop (matchBracketIndex + 1))
      | some matchLabelIndex =>
          match indexFrom ['"'] existing matchLabelIndex with
          | none => existing
          | some lastIndexOfOpr =>
              match indexFrom ['"'] existing (lastIndexOfOpr + 1) with
              | none => existing
              | some lastIndexOfVal =>
                  if labVal.value.length ≠ 0 then
                    replaceBetween
                      (replaceFirst existing (substring existing lastIndexOfOpr (lastIndexOfVal + 1))
                        (quoted labVal.value))
                      (matchLabelIndex + labVal.label.length) lastIndexOfOpr ['=', '~']
                  else removeLabel existing matchLabelIndex lastIndexOfVal

def setLabelsAndValues (baseQueryString queryString : Text) (labelValuesList : List QueryLabelValue) : Text :=
  labelValuesList.foldl (setLabel baseQueryString queryString) queryString

example : setLabelsAndValues "up".toList "up".toList [⟨"job".toList, ["a".toList, "b".toList]⟩] =
    "up\x7bjob=~\"a|b\"\x7d".toList := by decide +kernel

end LitmusPortal.PromUtils
