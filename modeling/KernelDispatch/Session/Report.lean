import KernelDispatch.Session.Basic
import KernelDispatch.Text.Hidden

/-!
# Reports on bound kernels

A bound kernel as a line of a table, and with all its fields for diagnosis. The columns of a table
are padded with blanks, and a longer text is kept whole; widths count characters. A quoted text
stands between double quotes: quotes, backslashes and the usual control characters are escaped by a
backslash and a letter, every other character without a visible form by its code point.
-/

namespace KernelDispatch.Text

/-- A text filled up with blanks to a width. -/
def padRight (width : Nat) (s : String) : String :=
  s ++ String.ofList (List.replicate (width - s.length) ' ')

/-- Whether a text is a column of a width: another text, and behind it as many blanks as it is
shorter than the width. -/
def IsColumn (width : Nat) (s column : String) : Prop :=
  column.length = max width s.length ∧
    ∃ blanks, column.toList = s.toList ++ List.replicate blanks ' '

/-- Filling up makes the column. -/
theorem isColumn_iff {width : Nat} {s column : String} :
    IsColumn width s column ↔ column = padRight width s := by
  constructor
  · rintro ⟨hlength, blanks, hcolumn⟩
    have hblanks : blanks = width - s.length := by
      have hsum := congrArg List.length hcolumn
      simp only [String.length_toList, List.length_append, List.length_replicate] at hsum
      omega
    rw [← String.toList_inj, hcolumn, hblanks, padRight]
    simp
  · rintro rfl
    refine ⟨?_, width - s.length, by simp [padRight]⟩
    simp only [padRight, String.length_append, String.length_ofList, List.length_replicate]
    omega

/-- The lower-case hexadecimal digits of a number. -/
def hexDigits (n : Nat) : String := String.ofList (Nat.toDigits 16 n)

/-- A character written by its code point. -/
def byCodePoint (c : Char) : String := "\\u\x7b" ++ hexDigits c.toNat ++ "\x7d"

/-- A character as it stands between quotes. -/
def escape (c : Char) : String :=
  if c = '"' then "\\\""
  else if c = '\\' then "\\\\"
  else if c = '\n' then "\\n"
  else if c = '\r' then "\\r"
  else if c = '\t' then "\\t"
  else if c.toNat = 0 then "\\0"
  else if c.toNat < 0x20 then byCodePoint c
  else if c.toNat < 0x7f then c.toString
  else if hidden c.toNat then byCodePoint c
  else c.toString

/-- A text between double quotes. -/
def quote (s : String) : String := "\"" ++ String.join (s.toList.map escape) ++ "\""

end KernelDispatch.Text

namespace KernelDispatch.BoundKernel

variable {κ : Type} [Kernel κ]

/-- The implementation of the kernel. -/
def kind (b : BoundKernel κ) : String := Kernel.kind b.kernel

/-- Node, identity, backend, implementation and origin in columns. -/
def line (b : BoundKernel κ) : String :=
  Text.padRight 20 b.node ++ " " ++ Text.padRight 28 b.identity.render ++ " -> " ++
    Text.padRight 4 b.backend ++ " " ++ Text.padRight 14 b.kind ++ " (" ++ b.origin.name ++ ")"

/-- Whether a text is the line of a bound kernel: the columns with the node, the operator as
`domain::op@version`, the backend and the implementation, and where the backend comes from. -/
def IsLine (b : BoundKernel κ) (l : String) : Prop :=
  ∃ node identity backend kind,
    Text.IsColumn 20 b.node node ∧
    Text.IsColumn 28
      (b.identity.domain ++ "::" ++ b.identity.op ++ "@" ++ toString b.identity.version) identity ∧
    Text.IsColumn 4 b.backend backend ∧ Text.IsColumn 14 (Kernel.kind b.kernel) kind ∧
    l = node ++ " " ++ identity ++ " -> " ++ backend ++ " " ++ kind ++
      match b.origin with
      | .primary => " (primary)"
      | .fallback => " (fallback)"

/-- A bound kernel has one line. -/
theorem isLine_iff {b : BoundKernel κ} {l : String} : b.IsLine l ↔ l = b.line := by
  have hidentity : b.identity.render =
      b.identity.domain ++ "::" ++ b.identity.op ++ "@" ++ toString b.identity.version := rfl
  simp only [IsLine, Text.isColumn_iff, line, kind, ← hidentity]
  constructor
  · rintro ⟨_, _, _, _, rfl, rfl, rfl, rfl, rfl⟩
    cases b.origin <;> simp [Origin.name, String.append_assoc]
  · rintro rfl
    refine ⟨_, _, _, _, rfl, rfl, rfl, rfl, ?_⟩
    cases b.origin <;> simp [Origin.name, String.append_assoc]

/-- A record is written as its name and its fields in braces. -/
def renderRecord (name : String) (fields : List (String × String)) : String :=
  name ++ " \x7b " ++ ", ".intercalate (fields.map fun f => f.1 ++ ": " ++ f.2) ++ " \x7d"

/-- All fields but the kernel's state. -/
def inspect (b : BoundKernel κ) : String :=
  renderRecord "BoundKernel"
    [ ("node", Text.quote b.node),
      ("identity",
        renderRecord "OperatorIdentity"
          [ ("op_type", Text.quote b.identity.op), ("domain", Text.quote b.identity.domain),
            ("version", toString b.identity.version) ]),
      ("backend", Text.quote b.backend),
      ("origin",
        match b.origin with
        | .primary => "Primary"
        | .fallback => "Fallback"),
      ("kind", Text.quote b.kind) ]

end KernelDispatch.BoundKernel
