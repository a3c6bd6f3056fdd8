import KernelDispatch.Json.Basic

/-!
# Reading JSON texts

The reader follows the grammar from left to right and never fails: where the text breaks off, the
tree ends in a fault. Of three nested calls at least one takes a character, so three times the
length of the text bounds the depth of calls.
-/

namespace KernelDispatch.Json.Reader

/-- The rest of a text; nothing once the text has broken off. -/
abbrev Rest := Option (List Char)

/-- The blanks between tokens. -/
def isBlank (c : Char) : Bool := c = ' ' || c = '\n' || c = '\t' || c = '\r'

/-- The text from its first token on. -/
def skipBlanks (cs : List Char) : List Char := cs.dropWhile isBlank

/-- The value of a hexadecimal digit. -/
def hexDigit? (c : Char) : Option Nat :=
  if '0' ≤ c ∧ c ≤ '9' then some (c.toNat - '0'.toNat)
  else if 'a' ≤ c ∧ c ≤ 'f' then some (c.toNat - 'a'.toNat + 10)
  else if 'A' ≤ c ∧ c ≤ 'F' then some (c.toNat - 'A'.toNat + 10)
  else none

/-- Four hexadecimal digits. A text of fewer than four bytes is truncated. -/
def hexWord : List Char → Except Fault (Nat × List Char)
  | a :: b :: c :: d :: rest =>
    match hexDigit? a, hexDigit? b, hexDigit? c, hexDigit? d with
    | some a, some b, some c, some d => .ok (((a * 16 + b) * 16 + c) * 16 + d, rest)
    | _, _, _, _ => .error .malformed
  | short =>
    if 4 ≤ (String.ofList short).utf8ByteSize then .error .malformed else .error .truncated

/-- The character of a simple escape. -/
def simpleEscape? (c : Char) : Option Char :=
  match c with
  | '"' => some '"'
  | '\\' => some '\\'
  | '/' => some '/'
  | 'b' => some '\x08'
  | 'f' => some '\x0c'
  | 'n' => some '\n'
  | 'r' => some '\r'
  | 't' => some '\t'
  | _ => none

/-- The character of an escape by UTF-16 units: one unit, or a leading surrogate followed by the
escape of a trailing one. -/
def unitEscape (cs : List Char) : Except Fault (Char × List Char) := do
  let (first, rest) ← hexWord cs
  if 0xdc00 ≤ first ∧ first ≤ 0xdfff then throw .malformed
  else if first < 0xd800 ∨ 0xdbff < first then return (Char.ofNat first, rest)
  else
    match rest with
    | [] => throw .truncated
    | ['\\'] => throw .truncated
    | '\\' :: 'u' :: rest => do
      let (second, rest) ← hexWord rest
      if second < 0xdc00 ∨ 0xdfff < second then throw .malformed
      return (Char.ofNat (0x10000 + (first - 0xd800) * 0x400 + (second - 0xdc00)), rest)
    | _ => throw .malformed

/-- The character of an escape, after the backslash. -/
def readEscape : List Char → Except Fault (Char × List Char)
  | [] => .error .truncated
  | 'u' :: rest => unitEscape rest
  | c :: rest =>
    match simpleEscape? c with
    | some d => .ok (d, rest)
    | none => .error .malformed

/-- Pass over an escape, after the backslash; surrogates need no partner. -/
def skipEscape : List Char → Except Fault (List Char)
  | [] => .error .truncated
  | 'u' :: rest => (hexWord rest).map (·.2)
  | c :: rest => if (simpleEscape? c).isSome then .ok rest else .error .malformed

/-- The characters of a string up to its closing quote. -/
def readString : Nat → List Char → Except Fault (List Char × List Char)
  | 0, _ => .error .truncated
  | _ + 1, [] => .error .truncated
  | _ + 1, '"' :: rest => .ok ([], rest)
  | fuel + 1, '\\' :: rest => do
    let (c, rest) ← readEscape rest
    let (s, rest) ← readString fuel rest
    return (c :: s, rest)
  | fuel + 1, c :: rest =>
    if c.toNat < 0x20 then .error .malformed
    else do
      let (s, rest) ← readString fuel rest
      return (c :: s, rest)

/-- Pass over a string up to its closing quote. -/
def skipString : Nat → List Char → Except Fault (List Char)
  | 0, _ => .error .truncated
  | _ + 1, [] => .error .truncated
  | _ + 1, '"' :: rest => .ok rest
  | fuel + 1, '\\' :: rest => do skipString fuel (← skipEscape rest)
  | fuel + 1, c :: rest => if c.toNat < 0x20 then .error .malformed else skipString fuel rest

/-- A string token after its opening quote: its text if the escapes denote characters, and the
rest; or the faults for a reader and for someone who skips. -/
def stringToken (cs : List Char) : Except (Fault × Fault) (Option String × List Char) :=
  match readString (cs.length + 1) cs, skipString (cs.length + 1) cs with
  | .ok (s, rest), _ => .ok (some (String.ofList s), rest)
  | .error _, .ok rest => .ok (none, rest)
  | .error reading, .error skipping => .error (reading, skipping)

/-- The value of a decimal digit. -/
def digit (c : Char) : Nat := c.toNat - '0'.toNat

/-- The leading digits of a text and the rest. -/
def digits (cs : List Char) : List Nat × List Char :=
  ((cs.takeWhile Char.isDigit).map digit, cs.dropWhile Char.isDigit)

/-- At least one digit. A reader tells a missing digit at the end of the text from a wrong
character, someone who skips does not. -/
def someDigits (cs : List Char) : Except (Fault × Fault) (List Nat × List Char) :=
  match digits cs with
  | ([], []) => .error (.truncated, .malformed)
  | ([], _ :: _) => .error (.malformed, .malformed)
  | found => .ok found

/-- The fraction of a number, if there is one. -/
def fraction : List Char → Except (Fault × Fault) (Option (List Nat) × List Char)
  | '.' :: rest => (someDigits rest).map fun p => (some p.1, p.2)
  | cs => .ok (none, cs)

/-- The digits of an exponent after its mark: whether it is negative, and its digits. -/
def signedDigits : List Char → Except (Fault × Fault) ((Bool × List Nat) × List Char)
  | '-' :: rest => (someDigits rest).map fun p => ((true, p.1), p.2)
  | '+' :: rest => (someDigits rest).map fun p => ((false, p.1), p.2)
  | cs => (someDigits cs).map fun p => ((false, p.1), p.2)

/-- The exponent of a number, if there is one. -/
def exponent : List Char → Except (Fault × Fault) (Option (Bool × List Nat) × List Char)
  | 'e' :: rest => (signedDigits rest).map fun p => (some p.1, p.2)
  | 'E' :: rest => (signedDigits rest).map fun p => (some p.1, p.2)
  | cs => .ok (none, cs)

/-- A number after its sign; a leading zero stands alone. -/
def numberToken (negative : Bool) (cs : List Char) :
    Except (Fault × Fault) (Literal × List Char) := do
  let (whole, rest) ← someDigits cs
  if whole.head? = some 0 ∧ 1 < whole.length then throw (.malformed, .malformed)
  let (fraction, rest) ← fraction rest
  let (exponent, rest) ← exponent rest
  return (⟨negative, whole, fraction, exponent⟩, rest)

/-- The tree of a token, or of the place where it breaks off. -/
def leaf {α : Type} (token : Except (Fault × Fault) (α × List Char)) (tree : α → Tree) :
    Tree × Rest :=
  match token with
  | .ok (a, rest) => (tree a, some rest)
  | .error (reading, skipping) => (.broken reading skipping, none)

/-- A break that is the same fault for everyone. -/
def break? (f : Fault) : Tree × Rest := (.broken f f, none)

/-- The letters of a word that remain to be read. -/
def word (tree : Tree) : List Char → List Char → Tree × Rest
  | [], rest => (tree, some rest)
  | _ :: _, [] => break? .truncated
  | w :: ws, c :: rest => if w = c then word tree ws rest else break? .malformed

mutual

/-- The value at the start of a text. -/
def value : Nat → List Char → Tree × Rest
  | 0, _ => break? .truncated
  | fuel + 1, cs =>
    match skipBlanks cs with
    | [] => break? .truncated
    | 'n' :: rest => word .null ['u', 'l', 'l'] rest
    | 't' :: rest => word (.bool true) ['r', 'u', 'e'] rest
    | 'f' :: rest => word (.bool false) ['a', 'l', 's', 'e'] rest
    | '"' :: rest => leaf (stringToken rest) .string
    | '-' :: rest => leaf (numberToken true rest) .number
    | '[' :: rest =>
      let (items, tail, rest) := items fuel true rest
      (.array items tail, rest)
    | '\x7b' :: rest =>
      let (members, tail, rest) := members fuel true rest
      (.object members tail, rest)
    | c :: rest =>
      if c.isDigit then leaf (numberToken false (c :: rest)) .number else break? .malformed

/-- The items of an array from here on; `first` says that none has been read. -/
def items : Nat → Bool → List Char → List Tree × Tail × Rest
  | 0, _, _ => ([], .broken .truncated .truncated, none)
  | fuel + 1, first, cs =>
    match skipBlanks cs with
    | [] => ([], .broken .truncated .truncated, none)
    | ']' :: rest => ([], .closed, some rest)
    | c :: rest =>
      if first then itemThenRest fuel (c :: rest)
      else if c ≠ ',' then ([], .broken .malformed .malformed, none)
      else
        match skipBlanks rest with
        | [] => ([.broken .truncated .truncated], .closed, none)
        | ']' :: _ => ([.broken .malformed .malformed], .closed, none)
        | rest => itemThenRest fuel rest

/-- One item and the items after it. -/
def itemThenRest : Nat → List Char → List Tree × Tail × Rest
  | 0, _ => ([], .broken .truncated .truncated, none)
  | fuel + 1, cs =>
    match value fuel cs with
    | (v, none) => ([v], .closed, none)
    | (v, some rest) =>
      let (vs, tail, rest) := items fuel false rest
      (v :: vs, tail, rest)

/-- The members of an object from here on; `first` says that none has been read. -/
def members : Nat → Bool → List Char → List (Option String × Tree) × Tail × Rest
  | 0, _, _ => ([], .broken .truncated .truncated, none)
  | fuel + 1, first, cs =>
    match skipBlanks cs with
    | [] => ([], .broken .truncated .truncated, none)
    | '\x7d' :: rest => ([], .closed, some rest)
    | c :: rest =>
      if first then memberThenRest fuel (c :: rest)
      else if c ≠ ',' then ([], .broken .malformed .malformed, none)
      else memberThenRest fuel (skipBlanks rest)

/-- One member and the members after it. -/
def memberThenRest : Nat → List Char → List (Option String × Tree) × Tail × Rest
  | 0, _ => ([], .broken .truncated .truncated, none)
  | fuel + 1, cs =>
    match cs with
    | [] => ([], .broken .truncated .truncated, none)
    | '"' :: rest =>
      match stringToken rest with
      | .error (reading, skipping) => ([], .broken reading skipping, none)
      | .ok (key, rest) =>
        match skipBlanks rest with
        | [] => ([(key, .broken .truncated .truncated)], .closed, none)
        | ':' :: rest =>
          match value fuel rest with
          | (v, none) => ([(key, v)], .closed, none)
          | (v, some rest) =>
            let (ms, tail, rest) := members fuel false rest
            ((key, v) :: ms, tail, rest)
        | _ => ([(key, .broken .malformed .malformed)], .closed, none)
    | _ => ([], .broken .malformed .malformed, none)

end

end Reader

/-- A JSON text: its value, and whether only blanks follow it. -/
structure Document where
  root : Tree
  complete : Bool
deriving Inhabited, Repr

/-- Read a text. -/
def Document.read (text : String) : Document :=
  let cs := text.toList
  match Reader.value (3 * cs.length + 3) cs with
  | (root, none) => ⟨root, true⟩
  | (root, some rest) => ⟨root, (Reader.skipBlanks rest).isEmpty⟩

end KernelDispatch.Json
