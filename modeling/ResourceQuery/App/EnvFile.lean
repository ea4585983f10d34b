import ResourceQuery.Text.Blank

/-!
# App — EnvFile

Environment variables from the text of an environment file: lines `NAME=value`, an `export` in front
or not.  A value may be quoted, and quotes may hold line ends.  In single quotes everything is
literal; elsewhere a backslash makes a quote, a backslash, a dollar sign or a space literal and
writes `\n` for a line end, and `$NAME` and a name in braces after a dollar sign stand for the value
of a variable.  Comments start at a `#` that begins a line or follows white space.

A variable that is already set keeps its value.  Reading stops at the first line that is malformed,
and the variables before it are kept.
-/

namespace ResourceQuery.EnvFile

/-- Variables and their values. -/
abbrev Variables := List (String × String)

/-! ## Lines -/

/-- Where the reading of lines stands. -/
inductive LineState where
  | complete
  | escape
  | single
  | singleEscape
  | double
  | doubleEscape
  | space
  deriving DecidableEq, Repr

/-- White space inside a line. -/
def isInlineBlank (c : Char) : Bool :=
  Text.isBlank c && c != '\n' && c != '\r'

/-- The state after a character that does not start a comment. -/
def LineState.next (st : LineState) (c : Char) : LineState :=
  match st with
  | .escape => .complete
  | .doubleEscape => .double
  | .singleEscape => .single
  | .double => if c = '\\' then .doubleEscape else if c = '"' then .complete else .double
  | .single => if c = '\\' then .singleEscape else if c = '\'' then .complete else .single
  | .complete =>
      if isInlineBlank c then .space
      else if c = '\\' then .escape
      else if c = '"' then .double
      else if c = '\'' then .single
      else .complete
  | .space =>
      if c = '\\' then .escape
      else if c = '"' then .double
      else if c = '\'' then .single
      else .complete

/-- The text before a comment and the state reached there; the flag tells whether there is one. -/
def scanLine (st : LineState) : List Char → List Char × LineState × Bool
  | [] => ([], st, false)
  | c :: cs =>
      if st = .space ∧ c = '#' then ([], st, true)
      else
        let (kept, st, comment) := scanLine (st.next c) cs
        (c :: kept, st, comment)

/-- The lines of a text with their line ends. -/
def rawLines : List Char → List (List Char)
  | [] => []
  | c :: cs =>
      if c = '\n' then ['\n'] :: rawLines cs
      else match rawLines cs with
        | [] => [[c]]
        | l :: ls => (c :: l) :: ls

/-- A line without its line end. -/
def dropLineEnd (cs : List Char) : List Char :=
  match cs.reverse with
  | '\n' :: '\r' :: r => r.reverse
  | '\n' :: r => r.reverse
  | _ => cs

/-- The logical lines, those that go on in quotes put together; `none` for one that never ends.
`buffer` is what the line has so far. -/
def logicalLines (buffer : List Char) (st : LineState) :
    List (List Char) → List (Option (List Char))
  | [] => if st = .complete then [] else [none]
  | l :: ls =>
      if (Text.dropBlanks (buffer ++ l)).head? = some '#' then
        some [] :: logicalLines [] .complete ls
      else
        match scanLine st l with
        | (kept, _, true) => some (buffer ++ kept) :: logicalLines [] .complete ls
        | (_, .complete, false) => some (dropLineEnd (buffer ++ l)) :: logicalLines [] .complete ls
        | (_, st, false) => logicalLines (buffer ++ l) st ls

/-! ## Values -/

/-- A name after a dollar sign that is being read. -/
inductive Reference where
  | bare (name : List Char)
  | braced (name : List Char)
  deriving DecidableEq, Repr

/-- Where the reading of a value stands. -/
structure ValueState where
  output : List Char := []
  single : Bool := false
  double : Bool := false
  escaped : Bool := false
  /-- Only white space and a comment may follow. -/
  ended : Bool := false
  reference : Option Reference := none
  deriving Repr

/-- Letters and digits; beyond ASCII, all characters but the blocks of signs and white space. -/
def isWordChar (c : Char) : Bool :=
  let n := c.toNat
  c.isAlphanum || n == 0xAA || n == 0xB2 || n == 0xB3 || n == 0xB5 || n == 0xB9 || n == 0xBA ||
    (0xBC ≤ n && n ≤ 0xBE) ||
    (0xC0 ≤ n && n != 0xD7 && n != 0xF7 && !(0x2000 ≤ n && n ≤ 0x206F) &&
      !(0x20A0 ≤ n && n ≤ 0x20FF) && !(0x2190 ≤ n && n ≤ 0x245F) &&
      !(0x2500 ≤ n && n ≤ 0x2775) && !(0x2794 ≤ n && n ≤ 0x2BFF) &&
      !(0x3000 ≤ n && n ≤ 0x3004) && !(0x3008 ≤ n && n ≤ 0x3020) &&
      !(0xE000 ≤ n && n ≤ 0xF8FF) && !(0xFE10 ≤ n && n ≤ 0xFE6F) && n != 0xFEFF &&
      !(0x1F000 ≤ n && n ≤ 0x1FAFF))

/-- The value of a variable; one that is not set has none. -/
def valueOf (vars : Variables) (name : List Char) : List Char :=
  ((vars.lookup (String.ofList name)).getD "").toList

/-- What a backslash makes of a character. -/
def unescape? (c : Char) : Option Char :=
  if c = '\\' ∨ c = '\'' ∨ c = '"' ∨ c = '$' ∨ c = ' ' then some c
  else if c = 'n' then some '\n'
  else none

/-- The state after a character that a reference ends before or in. -/
def ValueState.refer (st : ValueState) (vars : Variables) (r : Reference) (c : Char) :
    ValueState :=
  match r with
  | .bare name =>
      if isWordChar c then { st with reference := some (.bare (name ++ [c])) }
      else if c = '\x7b' ∧ name.isEmpty then { st with reference := some (.braced []) }
      else
        let output := st.output ++ valueOf vars name
        if c = '$' then { st with output, reference := some (.bare []) }
        else { st with output := output ++ [c], reference := none }
  | .braced name =>
      if c = '\x7d' then { st with output := st.output ++ valueOf vars name, reference := none }
      else { st with reference := some (.braced (name ++ [c])) }

/-- The state after a character that is neither escaped nor part of a reference. -/
def ValueState.plain (st : ValueState) (c : Char) : ValueState :=
  if c = '$' then { st with reference := some (.bare []) }
  else if c = '\\' then { st with escaped := true }
  else if st.double then
    if c = '"' then { st with double := false } else { st with output := st.output ++ [c] }
  else if c = '\'' then { st with single := true }
  else if c = '"' then { st with double := true }
  else if c = ' ' ∨ c = '\t' then { st with ended := true }
  else { st with output := st.output ++ [c] }

/-- The state after a character. -/
def ValueState.next? (st : ValueState) (vars : Variables) (c : Char) : Option ValueState :=
  if st.escaped then
    (unescape? c).map fun d => { st with output := st.output ++ [d], escaped := false }
  else if st.single then
    some (if c = '\'' then { st with single := false } else { st with output := st.output ++ [c] })
  else match st.reference with
    | some r => some (st.refer vars r c)
    | none => some (st.plain c)

/-- The value that ends here. -/
def ValueState.finish? (st : ValueState) (vars : Variables) : Option (List Char) :=
  if st.single || st.double then none
  else match st.reference with
    | some (.braced _) => none
    | some (.bare name) => some (st.output ++ valueOf vars name)
    | none => some st.output

/-- The value a text writes. -/
def value? (vars : Variables) (st : ValueState) : List Char → Option (List Char)
  | [] => st.finish? vars
  | c :: cs =>
      if st.ended then
        if c = ' ' ∨ c = '\t' then value? vars st cs
        else if c = '#' then st.finish? vars
        else none
      else match st.next? vars c with
        | some st => value? vars st cs
        | none => none

/-! ## Assignments -/

/-- What a name may start with. -/
def isNameStart (c : Char) : Bool :=
  c.isAlpha || c == '_'

/-- What a name may go on with. -/
def isNameChar (c : Char) : Bool :=
  c.isAlphanum || c == '_' || c == '.'

/-- A name, and what follows it and white space. -/
def name? : List Char → Option (List Char × List Char)
  | [] => none
  | c :: cs =>
      if isNameStart c then
        some (c :: cs.takeWhile isNameChar, Text.dropBlanks (cs.dropWhile isNameChar))
      else none

/-- What follows an equals sign. -/
def afterEquals? : List Char → Option (List Char)
  | '=' :: cs => some (Text.dropBlanks cs)
  | _ => none

/-- The name a line assigns to, and what it assigns, as written. -/
def target? (cs : List Char) : Option (List Char × List Char) := do
  let (name, rest) ← name? cs
  if name = "export".toList then
    match afterEquals? rest with
    | some v => some (name, v)
    | none => do
        let (name, rest) ← name? rest
        return (name, ← afterEquals? rest)
  else return (name, ← afterEquals? rest)

/-- What a line comes to. -/
inductive Line where
  | nothing
  | malformed
  | assign (name value : String)

/-- Reads a line, without the white space at its ends. -/
def readLine (vars : Variables) (cs : List Char) : Line :=
  match Text.trimChars cs with
  | [] => .nothing
  | '#' :: _ => .nothing
  | cs =>
      match target? cs with
      | none => .malformed
      | some (name, v) =>
          if v.isEmpty || v.head? == some '#' then .assign (String.ofList name) ""
          else match value? vars {} v with
            | some v => .assign (String.ofList name) (String.ofList v)
            | none => .malformed

/-- The variables after some lines. -/
def loadLines (vars : Variables) : List (Option (List Char)) → Variables
  | [] => vars
  | none :: _ => vars
  | some l :: ls =>
      match readLine vars l with
      | .nothing => loadLines vars ls
      | .malformed => vars
      | .assign name v =>
          loadLines (if (vars.lookup name).isSome then vars else vars ++ [(name, v)]) ls

/-- A text without the byte order mark it may start with. -/
def dropMark : List Char → List Char
  | [] => []
  | c :: cs => if c.toNat = 0xFEFF then cs else c :: cs

/-- The variables after reading an environment file. -/
def load (vars : Variables) (text : String) : Variables :=
  loadLines vars (logicalLines [] .complete (rawLines (dropMark text.toList)))

end ResourceQuery.EnvFile
