/-
JSON texts as Python writes and reads them.

`dumps` and `loads` are those of Python's `json` module: `dumps` has the options
`ensure_ascii`, `sort_keys` and the compact separators, `loads` is its scanner
with strict strings, `NaN` and the infinities.  A text is a list of characters; an
escape that names half a surrogate pair is rejected, since no character is one.

A float is read and written through `FloatText`, which stands for Python's
`float.__repr__` and `float`: a finite float is written as a number literal with a
fraction or an exponent, and reading the literal gives the float back.

The round trip is in `JsonRoundTrip.lean`.
-/
import Mathlib.Data.Char
import Mathlib.Data.List.Lex
import Mathlib.Data.List.Sort
import Mathlib.Data.Nat.Digits.Defs

namespace Json

/-! ### Literals -/

/-- A decimal digit of ASCII. -/
def isDigit (c : Char) : Bool :=
  decide ('0' ≤ c) && decide (c ≤ '9')

/-- A row of digits. -/
def Digits (ds : List Char) : Prop :=
  ∀ c ∈ ds, isDigit c = true

/-- `0`, or digits that do not start with `0`. -/
def IsInteger (ds : List Char) : Prop :=
  ds = ['0'] ∨ ∃ c rest, ds = c :: rest ∧ isDigit c = true ∧ c ≠ '0' ∧ Digits rest

/-- The fraction of a number, or none. -/
def IsFraction (l : List Char) : Prop :=
  l = [] ∨ ∃ d ds, l = '.' :: d :: ds ∧ Digits (d :: ds)

/-- The exponent of a number, or none. -/
def IsExponent (l : List Char) : Prop :=
  l = [] ∨ ∃ e sign d ds, l = e :: (sign ++ d :: ds) ∧ (e = 'e' ∨ e = 'E') ∧
    (sign = [] ∨ sign = ['+'] ∨ sign = ['-']) ∧ Digits (d :: ds)

/-- A number literal in its parts. -/
structure Literal where
  negative : Bool
  integer : List Char
  fraction : List Char
  exponent : List Char

/-- The text of a number. -/
def Literal.text (l : Literal) : List Char :=
  (if l.negative then ['-'] else []) ++ l.integer ++ l.fraction ++ l.exponent

/-- The parts are those of a number that JSON allows. -/
structure Literal.Valid (l : Literal) : Prop where
  integer : IsInteger l.integer
  fraction : IsFraction l.fraction
  exponent : IsExponent l.exponent

/-- Python's finite floats and their texts. -/
structure FloatText (F : Type) where
  repr : F → Literal
  float : Literal → F
  float_repr : ∀ x, float (repr x) = x
  valid : ∀ x, (repr x).Valid
  isFloat : ∀ x, (repr x).fraction ≠ [] ∨ (repr x).exponent ≠ []

/-! ### Values -/

/-- The names that a document may hold; Python allows the last three. -/
inductive Constant
  | null | true | false | nan | infinity | negativeInfinity
  deriving DecidableEq, Repr

/-- The text of a name. -/
def Constant.text : Constant → List Char
  | .null => ['n', 'u', 'l', 'l']
  | .true => ['t', 'r', 'u', 'e']
  | .false => ['f', 'a', 'l', 's', 'e']
  | .nan => ['N', 'a', 'N']
  | .infinity => ['I', 'n', 'f', 'i', 'n', 'i', 't', 'y']
  | .negativeInfinity => ['-', 'I', 'n', 'f', 'i', 'n', 'i', 't', 'y']

/-- A document; the floating-point numbers are a parameter. -/
inductive Value (F : Type)
  | constant (c : Constant)
  | int (n : ℤ)
  | float (x : F)
  | str (s : List Char)
  | arr (items : List (Value F))
  | obj (members : List (List Char × Value F))

section

variable {F : Type}

/-! ### Writing -/

/-- The keyword arguments of `json.dumps`. -/
structure Format where
  ensureAscii : Bool
  sortKeys : Bool
  compact : Bool

/-- A hexadecimal digit. -/
def hexDigit (n : ℕ) : Char :=
  if n < 10 then Char.ofNat ('0'.toNat + n) else Char.ofNat ('a'.toNat + (n - 10))

/-- `'{:04x}'`. -/
def hex4 (n : ℕ) : List Char :=
  [hexDigit (n / 4096 % 16), hexDigit (n / 256 % 16), hexDigit (n / 16 % 16), hexDigit (n % 16)]

/-- `\uXXXX`, as a surrogate pair beyond the basic plane. -/
def unicodeEscape (n : ℕ) : List Char :=
  if n < 0x10000 then '\\' :: 'u' :: hex4 n
  else '\\' :: 'u' :: (hex4 (0xD800 + (n - 0x10000) / 0x400) ++
    '\\' :: 'u' :: hex4 (0xDC00 + (n - 0x10000) % 0x400))

/-- One character of a string, in the encoder's text. -/
def escape (ensureAscii : Bool) (c : Char) : List Char :=
  if c = '"' then ['\\', '"']
  else if c = '\\' then ['\\', '\\']
  else if c = '\n' then ['\\', 'n']
  else if c = '\r' then ['\\', 'r']
  else if c = '\t' then ['\\', 't']
  else if c.toNat = 0x0C then ['\\', 'f']
  else if c.toNat = 0x08 then ['\\', 'b']
  else if c.toNat < 0x20 ∨ (ensureAscii ∧ 0x7E < c.toNat) then unicodeEscape c.toNat
  else [c]

/-- A string with its quotes. -/
def dumpString (f : Format) (s : List Char) : List Char :=
  '"' :: (s.flatMap (escape f.ensureAscii) ++ ['"'])

/-- The decimal text of a number. -/
def dumpNat (n : ℕ) : List Char :=
  if n = 0 then ['0'] else (Nat.digits 10 n).reverse.map fun d => Char.ofNat ('0'.toNat + d)

/-- The decimal text of an integer. -/
def dumpInt : ℤ → List Char
  | .ofNat n => dumpNat n
  | .negSucc n => '-' :: dumpNat (n + 1)

/-- What stands behind a separator. -/
def Format.space (f : Format) : List Char :=
  if f.compact then [] else [' ']

mutual

/-- The text of a document, with the members in their order. -/
def dump (t : FloatText F) (f : Format) : Value F → List Char
  | .constant c => c.text
  | .int n => dumpInt n
  | .float x => (t.repr x).text
  | .str s => dumpString f s
  | .arr items => '[' :: dumpItems t f items
  | .obj members => '{' :: dumpMembers t f members

/-- The items after the opening bracket. -/
def dumpItems (t : FloatText F) (f : Format) : List (Value F) → List Char
  | [] => [']']
  | v :: vs => dump t f v ++ dumpMoreItems t f vs

/-- The items behind the first, with their commas and the bracket. -/
def dumpMoreItems (t : FloatText F) (f : Format) : List (Value F) → List Char
  | [] => [']']
  | v :: vs => ',' :: (f.space ++ (dump t f v ++ dumpMoreItems t f vs))

/-- The members of an object, with its closing brace. -/
def dumpMembers (t : FloatText F) (f : Format) : List (List Char × Value F) → List Char
  | [] => ['}']
  | m :: ms => dumpMember t f m ++ dumpMoreMembers t f ms

/-- The members behind the first, with their commas and the brace. -/
def dumpMoreMembers (t : FloatText F) (f : Format) : List (List Char × Value F) → List Char
  | [] => ['}']
  | m :: ms => ',' :: (f.space ++ (dumpMember t f m ++ dumpMoreMembers t f ms))

/-- One key and its value. -/
def dumpMember (t : FloatText F) (f : Format) : List Char × Value F → List Char
  | (k, v) => dumpString f k ++ ':' :: (f.space ++ dump t f v)

end

/-- Members in the order of their keys. -/
def KeyLE (m m' : List Char × Value F) : Prop :=
  m.1 ≤ m'.1

instance : DecidableRel (@KeyLE F) :=
  fun m m' => inferInstanceAs (Decidable (m.1 ≤ m'.1))

mutual

/-- Members sorted by key, at every level. -/
def Value.sortKeys : Value F → Value F
  | .arr items => .arr (sortItems items)
  | .obj members => .obj ((sortMembers members).insertionSort KeyLE)
  | .constant c => .constant c
  | .int n => .int n
  | .float x => .float x
  | .str s => .str s

/-- The keys of every item sorted. -/
def Value.sortItems : List (Value F) → List (Value F)
  | [] => []
  | v :: vs => v.sortKeys :: sortItems vs

/-- The keys of every value sorted. -/
def Value.sortMembers : List (List Char × Value F) → List (List Char × Value F)
  | [] => []
  | m :: ms => sortMember m :: sortMembers ms

/-- The keys of the member's value sorted. -/
def Value.sortMember : List Char × Value F → List Char × Value F
  | (k, v) => (k, v.sortKeys)

end

/-- `json.dumps`. -/
def dumps (t : FloatText F) (f : Format) (v : Value F) : List Char :=
  dump t f (if f.sortKeys then v.sortKeys else v)

/-! ### Reading -/

/-- The whitespace of JSON. -/
def isSpace (c : Char) : Bool :=
  c == ' ' || c == '\t' || c == '\n' || c == '\r'

/-- What is behind the whitespace. -/
def skipSpace (cs : List Char) : List Char :=
  cs.dropWhile isSpace

/-- The value of a hexadecimal digit. -/
def hexValue (c : Char) : Option ℕ :=
  if '0' ≤ c ∧ c ≤ '9' then some (c.toNat - '0'.toNat)
  else if 'a' ≤ c ∧ c ≤ 'f' then some (c.toNat - 'a'.toNat + 10)
  else if 'A' ≤ c ∧ c ≤ 'F' then some (c.toNat - 'A'.toNat + 10)
  else none

/-- `_decode_uXXXX`. -/
def scanHex4 : List Char → Option (ℕ × List Char)
  | a :: b :: c :: d :: rest => do
    let a ← hexValue a
    let b ← hexValue b
    let c ← hexValue c
    let d ← hexValue d
    return (((a * 16 + b) * 16 + c) * 16 + d, rest)
  | _ => none

/-- The character after `\u`; a high surrogate takes the next escape with it. -/
def scanUnicode (cs : List Char) : Option (Char × List Char) := do
  let (n, rest) ← scanHex4 cs
  if 0xD800 ≤ n ∧ n ≤ 0xDBFF then
    match rest with
    | '\\' :: 'u' :: rest => do
      let (m, rest) ← scanHex4 rest
      if 0xDC00 ≤ m ∧ m ≤ 0xDFFF then
        return (Char.ofNat (0x10000 + ((n - 0xD800) * 0x400 + (m - 0xDC00))), rest)
      else none
    | _ => none
  else if 0xDC00 ≤ n ∧ n ≤ 0xDFFF then none
  else return (Char.ofNat n, rest)

/-- The character after a backslash. -/
def scanEscape : List Char → Option (Char × List Char)
  | '"' :: rest => some ('"', rest)
  | '\\' :: rest => some ('\\', rest)
  | '/' :: rest => some ('/', rest)
  | 'b' :: rest => some (Char.ofNat 0x08, rest)
  | 'f' :: rest => some (Char.ofNat 0x0C, rest)
  | 'n' :: rest => some ('\n', rest)
  | 'r' :: rest => some ('\r', rest)
  | 't' :: rest => some ('\t', rest)
  | 'u' :: rest => scanUnicode rest
  | _ => none

/-- `scanstring` after the opening quote; every step reads one character. -/
def scanString : ℕ → List Char → Option (List Char × List Char)
  | 0, _ => none
  | _ + 1, [] => none
  | fuel + 1, c :: cs =>
    if c = '"' then some ([], cs)
    else if c = '\\' then do
      let (e, cs) ← scanEscape cs
      let (s, rest) ← scanString fuel cs
      return (e :: s, rest)
    else if c.toNat < 0x20 then none
    else do
      let (s, rest) ← scanString fuel cs
      return (c :: s, rest)

/-- The digits before a fraction; a zero stands alone. -/
def scanInteger : List Char → Option (List Char × List Char)
  | [] => none
  | c :: cs =>
    if c = '0' then some (['0'], cs)
    else if isDigit c then some ((c :: cs).span isDigit)
    else none

/-- A fraction, if there is one, and the rest. -/
def scanFraction : List Char → List Char × List Char
  | '.' :: d :: cs =>
    if isDigit d then ('.' :: ((d :: cs).span isDigit).1, ((d :: cs).span isDigit).2)
    else ([], '.' :: d :: cs)
  | cs => ([], cs)

/-- The sign of an exponent, if there is one, and the rest. -/
def scanSign : List Char → List Char × List Char
  | '+' :: cs => (['+'], cs)
  | '-' :: cs => (['-'], cs)
  | cs => ([], cs)

/-- The digits of an exponent; without one there is no exponent. -/
def scanExponentDigits (e : Char) (sign : List Char) (whole : List Char) :
    List Char → List Char × List Char
  | d :: cs =>
    if isDigit d then (e :: (sign ++ ((d :: cs).span isDigit).1), ((d :: cs).span isDigit).2)
    else ([], whole)
  | [] => ([], whole)

/-- An exponent, if there is one, and the rest. -/
def scanExponent : List Char → List Char × List Char
  | e :: cs =>
    if e = 'e' ∨ e = 'E' then scanExponentDigits e (scanSign cs).1 (e :: cs) (scanSign cs).2
    else ([], e :: cs)
  | [] => ([], [])

/-- `match_number`: the longest literal. -/
def scanNumber (cs : List Char) : Option (Literal × List Char) := do
  let (negative, cs) := match cs with
    | '-' :: cs => (true, cs)
    | cs => (false, cs)
  let (integer, cs) ← scanInteger cs
  let (fraction, cs) := scanFraction cs
  let (exponent, cs) := scanExponent cs
  return (⟨negative, integer, fraction, exponent⟩, cs)

/-- The number that digits stand for. -/
def ofDigits (ds : List Char) : ℕ :=
  ds.foldl (fun n d => n * 10 + (d.toNat - '0'.toNat)) 0

/-- An integer, or a floating-point number if there is a fraction or an exponent. -/
def Literal.value (t : FloatText F) (l : Literal) : Value F :=
  if l.fraction = [] ∧ l.exponent = [] then
    .int (if l.negative then -(ofDigits l.integer : ℤ) else ofDigits l.integer)
  else .float (t.float l)

/-- A name, and the rest. -/
def scanConstant (cs : List Char) : Option (Constant × List Char) :=
  [Constant.null, .true, .false, .nan, .infinity, .negativeInfinity].findSome? fun c =>
    (cs.dropPrefix? c.text).map fun rest => (c, rest)

/-- `dict`: a later member with the same key replaces the value. -/
def insertMember (ms : List (List Char × Value F)) (m : List Char × Value F) :
    List (List Char × Value F) :=
  if ms.any (·.1 == m.1) then ms.map fun m' => if m'.1 = m.1 then m else m' else ms ++ [m]

mutual

/-- `scan_once`; every call spends fuel. -/
def scan (t : FloatText F) : ℕ → List Char → Option (Value F × List Char)
  | 0, _ => none
  | _ + 1, [] => none
  | fuel + 1, c :: cs =>
    if c = '"' then (scanString (cs.length + 1) cs).map fun (s, rest) => (.str s, rest)
    else if c = '[' then
      match skipSpace cs with
      | ']' :: rest => some (.arr [], rest)
      | cs => (scanItems t fuel cs).map fun (vs, rest) => (.arr vs, rest)
    else if c = '{' then
      match skipSpace cs with
      | '}' :: rest => some (.obj [], rest)
      | cs => (scanMembers t fuel cs).map fun (ms, rest) => (.obj (ms.foldl insertMember []), rest)
    else match scanNumber (c :: cs) with
      | some (l, rest) => some (l.value t, rest)
      | none => (scanConstant (c :: cs)).map fun (k, rest) => (.constant k, rest)

/-- The items of an array, from the first one to the closing bracket. -/
def scanItems (t : FloatText F) : ℕ → List Char → Option (List (Value F) × List Char)
  | 0, _ => none
  | fuel + 1, cs => do
    let (v, cs) ← scan t fuel cs
    match skipSpace cs with
    | ']' :: rest => some ([v], rest)
    | ',' :: cs => do
      let (vs, rest) ← scanItems t fuel (skipSpace cs)
      return (v :: vs, rest)
    | _ => none

/-- The members of an object, behind its opening brace, and the rest. -/
def scanMembers (t : FloatText F) :
    ℕ → List Char → Option (List (List Char × Value F) × List Char)
  | 0, _ => none
  | fuel + 1, cs =>
    match cs with
    | '"' :: cs => do
      let (k, cs) ← scanString (cs.length + 1) cs
      match skipSpace cs with
      | ':' :: cs => do
        let (v, cs) ← scan t fuel (skipSpace cs)
        match skipSpace cs with
        | '}' :: rest => some ([(k, v)], rest)
        | ',' :: cs => do
          let (ms, rest) ← scanMembers t fuel (skipSpace cs)
          return ((k, v) :: ms, rest)
        | _ => none
      | _ => none
    | _ => none

end

/-- `loads`: one value, with nothing but whitespace around it. -/
def loads (t : FloatText F) (cs : List Char) : Option (Value F) := do
  let (v, rest) ← scan t (2 * cs.length + 2) (skipSpace cs)
  if skipSpace rest = [] then some v else none

end

end Json
