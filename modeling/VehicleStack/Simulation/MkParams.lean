import VehicleStack.Common.Dict
import VehicleStack.Common.Text

/-!
# The parameter file with overrides — `mkparams`

The tool copies a parameter file and gives new values to the keys its
arguments name. It goes through the file line by line with a stack of the
blocks it takes the line to be in, and it reports at the end which of the
arguments it has not found. The file is a text: what is read and written is
UTF-8 both times.
-/

namespace VehicleStack

namespace Simulation

/-! ## The arguments -/

/-- `a.split('=', 1)`, of an argument that has a `=`. -/
def splitEq (a : List Char) : Option (List Char × List Char) :=
  match a.dropWhile (· ≠ '=') with
  | [] => none
  | _ :: newval => some (a.takeWhile (· ≠ '='), newval)

/-- `overrides`. An argument without a `=` is a `ValueError`. -/
def overridesOf (args : List (List Char)) : Option (Dict (List Char) (List Char)) :=
  args.foldlM (fun overrides a => (splitEq a).map fun (spec, newval) => overrides.set spec newval)
    Dict.empty

/-- `spec.split('.')`. -/
def splitDots (spec : List Char) : List (List Char) := spec.splitOn '.'

/-! ## A line -/

/-- `[A-Za-z_]`. -/
def isKeyStart (c : Char) : Bool := c.isAlpha || c == '_'

/-- `[A-Za-z0-9_]`. -/
def isKeyChar (c : Char) : Bool := c.isAlphanum || c == '_'

/-- The groups of a match. -/
structure KeyLine where
  blanks : List Char
  key : List Char
  val : List Char
  deriving DecidableEq, Repr

def KeyLine.indent (m : KeyLine) : ℕ := m.blanks.length

/-- The match of `^(\s*)([A-Za-z_][A-Za-z0-9_]*):\s*(.*?)\s*$`. -/
def matchLine (line : List Char) : Option KeyLine :=
  let rest := line.dropWhile Text.isSpace
  match rest.takeWhile isKeyChar, rest.dropWhile isKeyChar with
  | c :: key, ':' :: val =>
    if isKeyStart c then some ⟨line.takeWhile Text.isSpace, c :: key, Text.strip val⟩ else none
  | _, _ => none

/-- The two tests on an override. The line's block is `parents[-1]`. -/
def selects (parent : Option (List Char)) (key spec : List Char) : Bool :=
  let want := splitDots spec
  want.getLast? == some key && (want.length ≤ 1 || parent == want[want.length - 2]?)

/-! ## The file -/

/-- A line of `out`, and the override it was made for, if it was made for
one. -/
structure Appended where
  text : List Char
  spec : Option (List Char)
  deriving DecidableEq, Repr

/-- The variables of the loop. The top of the stack comes first. -/
structure Rewrite where
  out : List Appended
  hit : List (List Char)
  stack : List (ℕ × List Char)
  deriving DecidableEq, Repr

/-- One line. -/
def Rewrite.line (overrides : Dict (List Char) (List Char)) (st : Rewrite) (line : List Char) :
    Rewrite :=
  match matchLine line with
  | none => { st with out := st.out ++ [⟨line, none⟩] }
  | some m =>
    let stack := st.stack.dropWhile fun block => m.indent ≤ block.1
    let parent := stack.head?.map Prod.snd
    let pushed := if m.val = [] then (m.indent, m.key) :: stack else stack
    match overrides.entries.find? fun o => selects parent m.key o.1 with
    | some (spec, newval) =>
      { out := st.out ++ [⟨m.blanks ++ m.key ++ ':' :: ' ' :: newval ++ ['\n'], some spec⟩]
        hit := st.hit ++ [['.'].intercalate (parent.toList ++ [m.key])]
        stack := pushed }
    | none => { st with out := st.out ++ [⟨line, none⟩], stack := pushed }

/-- `missing`: the overrides whose last part is that of no hit. -/
def notFound (overrides : Dict (List Char) (List Char)) (hit : List (List Char)) :
    List (List Char) :=
  overrides.keys.filter fun spec =>
    (splitDots spec).getLast? ∉ hit.map fun h => (splitDots h).getLast?

/-- What the tool writes and prints. -/
structure Output where
  out : List Appended
  hit : List (List Char)
  missing : List (List Char)
  deriving DecidableEq, Repr

/-- The text that is written. -/
def Output.text (r : Output) : List Char := r.out.flatMap Appended.text

/-- `mkparams`, of the text of its source. -/
def mkparams (text : List Char) (args : List (List Char)) : Option Output :=
  (overridesOf args).map fun overrides =>
    let st := (Text.fileLines (Text.newlines text)).foldl (Rewrite.line overrides) ⟨[], [], []⟩
    ⟨st.out, st.hit, notFound overrides st.hit⟩

end Simulation

end VehicleStack
