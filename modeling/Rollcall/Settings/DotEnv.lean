import Rollcall.Text.Blank

/-!
Files of variables.

A file that gives values to variables, one in a line: `NAME=value`, perhaps after `export`. Values
may be quoted, `$NAME` and `${NAME}` stand for variables, and `#` after a blank starts a comment. A
line goes on while a quote is open. The file is read up to its first malformed line, and a variable
that already has a value keeps it.
-/

namespace Rollcall.Settings.DotEnv

abbrev Variables := List (String × String)

/-- The variables of a block of entries `NAME=value`, each with a NUL behind it. -/
def ofBlock (block : String) : Variables :=
  (block.splitOn "\x00").filterMap fun entry =>
    match entry.splitOn "=" with
    | name :: value :: rest => some (name, "=".intercalate (value :: rest))
    | _ => none

def lookup (name : String) (vars : Variables) : Option String :=
  (vars.find? fun (other, _) => other == name).map Prod.snd

/-! Lines -/

inductive Quoting where
  | plain
  | blank
  | escape
  | strong
  | strongEscape
  | weak
  | weakEscape
deriving DecidableEq, Repr

/-- The state after a character; none where a comment starts. -/
def Quoting.next (q : Quoting) (c : Char) : Option Quoting :=
  let opening : Quoting :=
    if c = '\\' then .escape else if c = '"' then .weak else if c = '\'' then .strong else .plain
  match q with
  | .plain => if Text.isBlank c && c != '\n' && c != '\r' then some .blank else some opening
  | .blank => if c = '#' then none else some opening
  | .escape => some .plain
  | .strong =>
      some (if c = '\\' then .strongEscape else if c = '\'' then .plain else .strong)
  | .strongEscape => some .strong
  | .weak => some (if c = '\\' then .weakEscape else if c = '"' then .plain else .weak)
  | .weakEscape => some .weak

/-- A physical line: the part before a comment, and the state at its end, none in a comment. -/
def scanLine (q : Quoting) : List Char → List Char × Option Quoting
  | [] => ([], some q)
  | c :: cs =>
      match q.next c with
      | none => ([], none)
      | some q =>
          let (rest, q) := scanLine q cs
          (c :: rest, q)

def physicalLines (done : List Char) : List Char → List (List Char)
  | [] => if done.isEmpty then [] else [done.reverse]
  | '\n' :: cs => ('\n' :: done).reverse :: physicalLines [] cs
  | c :: cs => physicalLines (c :: done) cs

def isComment (line : List Char) : Bool := (line.dropWhile Text.isBlank).head? == some '#'

/-- Logical lines; none stands for one that never ends. `before` is the logical line so far. -/
def logicalLines (before : List Char) (q : Quoting) : List (List Char) → List (Option (List Char))
  | [] => if q = .plain then [] else [none]
  | line :: rest =>
      if isComment (before ++ line) then
        logicalLines [] .plain rest
      else
        let (kept, q) := scanLine q line
        match q with
        | none => some (before ++ kept) :: logicalLines [] .plain rest
        | some .plain => some (before ++ kept) :: logicalLines [] .plain rest
        | some q => logicalLines (before ++ kept) q rest

/-! Values -/

/-- What a substitution is in the middle of: no substitution, a bare name, a name in braces. -/
inductive Substitution where
  | none
  | bare (name : List Char)
  | braced (name : List Char)
deriving DecidableEq, Repr

/-- The part of a value read so far, characters last first. -/
structure Partial where
  out : List Char := []
  strong : Bool := false
  weak : Bool := false
  escaped : Bool := false
  ended : Bool := false
  substitution : Substitution := .none

/-- The value of a name, given last character first, put at the end. -/
def Partial.substitute (p : Partial) (vars : String → String) (name : List Char) : Partial :=
  { p with
    out := (vars (String.ofList name.reverse)).toList.reverse ++ p.out
    substitution := .none }

/-- One more character; none where it makes the value malformed. -/
def Partial.next (vars : String → String) (p : Partial) (c : Char) : Option Partial :=
  let push : Partial := { p with out := c :: p.out }
  if p.ended then
    if c = ' ' ∨ c = '\t' then some p else none
  else if p.escaped then
    let p := { p with escaped := false }
    if c = '\\' ∨ c = '\'' ∨ c = '"' ∨ c = '$' ∨ c = ' ' then some { p with out := c :: p.out }
    else if c = 'n' then some { p with out := '\n' :: p.out }
    else none
  else if p.strong then
    if c = '\'' then some { p with strong := false } else some push
  else
    match p.substitution with
    | .bare name =>
        if c.isAlphanum then some { p with substitution := .bare (c :: name) }
        else if c = '\x7b' ∧ name.isEmpty then some { p with substitution := .braced [] }
        else
          let p := p.substitute vars name
          if c = '$' then some { p with substitution := .bare [] }
          else some { p with out := c :: p.out }
    | .braced name =>
        if c = '\x7d' then some (p.substitute vars name)
        else some { p with substitution := .braced (c :: name) }
    | .none =>
        if c = '$' then some { p with substitution := .bare [] }
        else if p.weak then
          if c = '"' then some { p with weak := false }
          else if c = '\\' then some { p with escaped := true }
          else some push
        else if c = '\'' then some { p with strong := true }
        else if c = '"' then some { p with weak := true }
        else if c = '\\' then some { p with escaped := true }
        else if c = ' ' ∨ c = '\t' then some { p with ended := true }
        else some push

def Partial.finish (vars : String → String) (p : Partial) : Option String :=
  match p.substitution with
  | .braced _ => none
  | .bare name =>
      if p.strong || p.weak then none
      else some (String.ofList (p.substitute vars name).out.reverse)
  | .none => if p.strong || p.weak then none else some (String.ofList p.out.reverse)

def readValue? (vars : String → String) (p : Partial) : List Char → Option String
  | [] => p.finish vars
  | c :: cs =>
      if p.ended && c = '#' then p.finish vars
      else match p.next vars c with
        | none => none
        | some p => readValue? vars p cs

/-! Assignments -/

def isNameStart (c : Char) : Bool := c.isAlpha || c = '_'

def isNameChar (c : Char) : Bool := c.isAlphanum || c = '_' || c = '.'

/-- A name and what follows it, blanks skipped. -/
def readName? (cs : List Char) : Option (String × List Char) :=
  match cs with
  | c :: _ =>
      if isNameStart c then
        some (String.ofList (cs.takeWhile isNameChar),
          (cs.dropWhile isNameChar).dropWhile Text.isBlank)
      else none
  | [] => none

def afterEquals? : List Char → Option (List Char)
  | '=' :: cs => some (cs.dropWhile Text.isBlank)
  | _ => none

/-- The name of an assignment and the text of its value. `export` before the name is passed over,
unless it is the name itself. -/
def readAssignment? (cs : List Char) : Option (String × List Char) :=
  match readName? cs with
  | none => none
  | some (name, rest) =>
      match afterEquals? rest with
      | some value => some (name, value)
      | none =>
          if name = "export" then
            match readName? rest with
            | some (name, rest) => (afterEquals? rest).map fun value => (name, value)
            | none => none
          else none

/-- The variables after the logical lines. `known` holds what the file itself gave so far, which is
what a substitution falls back to. -/
def apply (known vars : Variables) : List (Option (List Char)) → Variables
  | [] => vars
  | none :: _ => vars
  | some line :: rest =>
      let cs := Text.trimEnd (line.dropWhile Text.isBlank)
      if cs.isEmpty || isComment cs then
        apply known vars rest
      else
        match readAssignment? cs with
        | none => vars
        | some (name, text) =>
            let value (other : String) : String :=
              (lookup other vars).getD ((lookup other known).getD "")
            let value? :=
              if text.isEmpty || isComment text then some "" else readValue? value {} text
            match value? with
            | none => vars
            | some value =>
                let vars := if (lookup name vars).isSome then vars else vars ++ [(name, value)]
                apply ((name, value) :: known) vars rest

/-- The variables after a file has been read, a mark of byte order at its start passed over. -/
def load (file : String) (vars : Variables) : Variables :=
  let cs := match file.toList with
    | '\uFEFF' :: cs => cs
    | cs => cs
  apply [] vars (logicalLines [] .plain (physicalLines [] cs))

end Rollcall.Settings.DotEnv
