import Fumox.RustText

/-!
The two guards of feed content: fields without line breaks, and YAML text without alias references,
found by a line scanner that carries quote and block-scalar state.
-/

namespace PayloadGuards

open RustText

def hasLineBreak (value : Text) : Bool :=
  value.any fun c => c = '\n' || c = '\r'

def rejectLineBreaks (field value : Text) : Except Text Unit :=
  if hasLineBreak value then .error field else .ok ()

theorem rejectLineBreaks_eq_ok {ε : Type} {f : Text → ε} {field value : Text} {u : Unit} :
    (rejectLineBreaks field value).mapError f = .ok u ↔ hasLineBreak value = false := by
  unfold rejectLineBreaks
  split <;> simp [Except.mapError, *]

def stripCarriageReturn (line : Text) : Text :=
  if line.getLast? = some '\r' then line.dropLast else line

/-- `str::lines`: a line ends at LF or CRLF, and only a terminated line loses its CR. -/
def lines (t : Text) : List Text :=
  let pieces := t.splitOn '\n'
  pieces.dropLast.map stripCarriageReturn ++
    (match pieces.getLast? with
      | some [] => []
      | some last => [last]
      | none => [])

structure ScanState where
  inDouble : Bool
  inSingle : Bool
  blockIndent : Option ℕ
  deriving DecidableEq, Repr

def isBoundary : Option Char → Bool
  | none => true
  | some c => c = ' ' || c = '\t' || c = ',' || c = '[' || c = '\x7b' || c = ':' || c = '?'

def stripEntryMarkers : ℕ → Text → Text
  | n + 1, '-' :: ' ' :: rest => stripEntryMarkers n (trimStart rest)
  | _, rest => rest

def dropIndicators : Text → Bool → Bool → Text
  | [], _, _ => []
  | c :: rest, sawIndent, sawChomp =>
    if c.isDigit ∧ sawIndent = false then dropIndicators rest true sawChomp
    else if (c = '+' ∨ c = '-') ∧ sawChomp = false then dropIndicators rest sawIndent true
    else c :: rest

/-- Whether the indicator at the head of `header`, after `before` on its line, opens a block
scalar. -/
def isBlockScalarHeader (before header : Text) : Bool :=
  let rest := stripEntryMarkers before.length (trim before)
  let atValue := rest = [] || rest = ['-'] || rest.getLast? = some ':'
  let tail := trim (dropIndicators header.tail false false)
  atValue && (tail = [] || tail.head? = some '#')

/-- Scans one line from the reversed text `before` on; the flag is an alias found. -/
def scanYamlLine (indent : ℕ) : Text → Text → ScanState → ScanState × Bool
  | _, [], st => (st, false)
  | before, b :: rest, st =>
    let boundary := isBoundary before.head?
    if st.inDouble then
      if b = '\\' then
        match rest with
        | [] => (st, false)
        | c :: rest => scanYamlLine indent (c :: b :: before) rest st
      else if b = '"' then scanYamlLine indent (b :: before) rest { st with inDouble := false }
      else scanYamlLine indent (b :: before) rest st
    else if st.inSingle then
      if b = '\'' then
        match rest with
        | '\'' :: rest => scanYamlLine indent ('\'' :: b :: before) rest st
        | rest => scanYamlLine indent (b :: before) rest { st with inSingle := false }
      else scanYamlLine indent (b :: before) rest st
    else if b = '"' ∧ boundary then
      scanYamlLine indent (b :: before) rest { st with inDouble := true }
    else if b = '\'' ∧ boundary then
      scanYamlLine indent (b :: before) rest { st with inSingle := true }
    else if b = '#' ∧ (before = [] ∨ before.head? = some ' ' ∨ before.head? = some '\t') then
      (st, false)
    else if b = '*' ∧ boundary then (st, true)
    else if (b = '|' ∨ b = '>') ∧ boundary ∧ isBlockScalarHeader before.reverse (b :: rest) then
      scanYamlLine indent (b :: before) rest { st with blockIndent := some indent }
    else scanYamlLine indent (b :: before) rest st

def indentOf (line : Text) : ℕ :=
  (bytes line).length - (bytes (trimStart line)).length

def isBlockContent (headerIndent : ℕ) (line : Text) : Bool :=
  trim line = [] || headerIndent < indentOf line

def scanLines : ℕ → List Text → ScanState → Option ℕ
  | _, [], _ => none
  | number, line :: rest, st =>
    if st.blockIndent.any (isBlockContent · line) then scanLines (number + 1) rest st
    else
      match scanYamlLine (indentOf line) [] line { st with blockIndent := none } with
      | (_, true) => some number
      | (st, false) => scanLines (number + 1) rest st

def rejectYamlAliases (payload : Text) : Except ℕ Unit :=
  match scanLines 1 (lines payload) ⟨false, false, none⟩ with
  | some number => .error number
  | none => .ok ()

example : rejectYamlAliases "a: &x [1]\nb: [*x]\n" = .error 2 := by decide +kernel

end PayloadGuards
