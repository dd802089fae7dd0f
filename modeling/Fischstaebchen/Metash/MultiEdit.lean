/-
  The multi-edit mode of metash (`scripts/metash`: `process_lines`, `process_infiles` and
  `main`).

  For each argument `infile,...=outfile` the expanded infiles are written to the outfile.
  The variables are forked for each infile; the symbols of `defsym` are not.

  * `multiEdit`: the mode, on the files and the standard streams.
  * `EditArg.requests`: the symbols an argument asks for, which does not depend on the
    other arguments.
-/
import Fischstaebchen.Metash.ShellReader

namespace Fischstaebchen

namespace Metash

/-! ## References to variables -/

/-- A part of a text line. -/
inductive Component
  | char (c : Char)
  | ref (name : CStr)

/-- `re_metavar` at the start of the text: the name, and how long the match is. -/
def matchRef : CStr → Option (CStr × ℕ)
  | '@' :: '@' :: s =>
    let name := s.takeWhile fun c => c.isUpper || c == '_' || c.isDigit
    let name := if s.head? = some '$' then ['$'] else name
    if isMetavarName name ∧ (s.drop name.length).take 2 = ['@', '@'] then
      some (name, name.length + 4)
    else none
  | _ => none

/-- `do_parse_metavar_line`; the first number of characters belong to a reference. -/
def parseMetavarLine : ℕ → CStr → List Component
  | _, [] => []
  | skip + 1, _ :: s => parseMetavarLine skip s
  | 0, c :: s =>
    match matchRef (c :: s) with
    | some (name, len) => .ref name :: parseMetavarLine (len - 1) s
    | none => .char c :: parseMetavarLine 0 s

/-- What the program is run with. -/
structure Config where
  /-- how deep expansions may be nested -/
  limit : ℕ
  macros : Macros
  /-- the function definitions of `process_lines`, for the lines of a file -/
  funcdefs : List (Origin × CStr) → Except ReaderError (List CStr)
  keepGoing : Bool
  metavars : VarsDict

section
variable (C : Config)

/-- `VarsDict.__getitem__`, for a fork. -/
def Config.getItem (vars : VarsDict) (name : CStr) : Option MetaValue :=
  (vars name).or (C.metavars name)

/-- `MetavarTextLine.__str__`; a missing variable stands for its reference. -/
def Config.componentStr (vars : VarsDict) : Component → CStr
  | .char c => [c]
  | .ref name =>
    match C.getItem vars name with
    | some v => v.unicode
    | none => '@' :: '@' :: name ++ ['@', '@']

/-- The order of strings, by code points. -/
def leStr : CStr → CStr → Bool
  | [], _ => true
  | _ :: _, [] => false
  | a :: s, b :: t => a.toNat < b.toNat || (a == b && leStr s t)

/-- The names that are not defined. -/
def Config.missing (vars : VarsDict) (line : List Component) : List CStr :=
  line.filterMap fun
    | .char _ => none
    | .ref name => if (C.getItem vars name).isSome then none else some name

/-- The loop body of `MetavarFileReader.process_lines`. -/
def Config.expandText (vars : VarsDict) (line : CStr) : Except ReaderError CStr :=
  let components := parseMetavarLine 0 line
  let missing := C.missing vars components
  if missing ≠ [] ∧ C.keepGoing = false then .error (.keyError (missing.dedup.mergeSort leStr))
  else .ok (rstrip (components.flatMap (C.componentStr vars)))

/-- The loop of `MetavarFileReader.process_lines`. -/
def Config.expandTexts : List Yield → Except ReaderError (List (Origin × CStr))
  | [] => .ok []
  | .expansion _ _ :: ys => Config.expandTexts ys
  | .text vars o line :: ys =>
    match C.expandText vars line with
    | .error e => .error e
    | .ok s =>
      match Config.expandTexts ys with
      | .error e => .error e
      | .ok rest => .ok ((o, s) :: rest)

/-- `process_lines`: the text that is written for a file. -/
def Config.processLines (actions : List (Action Yield)) : Except ReaderError CStr :=
  match C.expandTexts (actions.flatMap Action.results) with
  | .error e => .error e
  | .ok lines =>
    match C.funcdefs lines with
    | .error e => .error e
    | .ok lines => .ok (lines.flatMap (· ++ ['\n']))

end

/-! ## Files -/

/-- The standard streams. -/
def dash : CStr := ['-']

/-- The texts of the files, and what is left of the standard input. -/
structure World where
  files : CStr → Option CStr
  stdin : CStr
  stdout : CStr

/-- The lines of a text file, without their newlines; the first line begins with `start`. -/
def fileLines (start : CStr) : CStr → List CStr
  | [] => if start = [] then [] else [start]
  | '\r' :: '\n' :: s => start :: fileLines [] s
  | '\r' :: s => start :: fileLines [] s
  | '\n' :: s => start :: fileLines [] s
  | c :: s => fileLines (start ++ [c]) s

/-- The input lines of a text. -/
def inputLines (text : CStr) : Except ReaderError (List InputLine) :=
  preprocessLines (fileLines [] text)

/-- `_iread_file_lines`: the text, and what is left; a stream is read to its end. -/
def World.readFile (w : World) (filepath : CStr) : Except ReaderError (World × CStr) :=
  if filepath = dash then .ok ({ w with stdin := [] }, w.stdin)
  else
    match w.files filepath with
    | none => .error (.fileNotFound filepath)
    | some text => .ok (w, text)

def World.setFile (w : World) (outfile text : CStr) : World :=
  { w with files := fun file => if file = outfile then some text else w.files file }

/-- The outfile is opened, and truncated. -/
def World.openOutfile (w : World) (outfile : CStr) : World :=
  if outfile = dash then w else w.setFile outfile []

/-- The outfile is closed; then it has the text. -/
def World.closeOutfile (w : World) (outfile text : CStr) : World :=
  if outfile = dash then { w with stdout := w.stdout ++ text } else w.setFile outfile text

/-- What an outfile has, or the standard output. -/
def World.output (w : World) (outfile : CStr) : Option CStr :=
  if outfile = dash then some w.stdout else w.files outfile

/-! ## The mode -/

/-- The world, and the symbols that are used. -/
structure Session extends World where
  used : List Symbol

/-- What is made of an argument: what each line of each infile is expanded to, and the
    content that is written. -/
structure Record where
  actions : List (List (Action Yield))
  content : CStr

/-- An argument: the infiles and the outfile. -/
structure EditArg where
  infiles : List CStr
  outfile : CStr
  infiles_ne : infiles ≠ []
  outfile_ne : outfile ≠ []

/-- `infile_arg.rpartition('=')`, and the infiles between commas. -/
def parseEditArg (infileArg : CStr) : Option EditArg :=
  let outfile := infileArg.rtakeWhile (· != '=')
  let infiles := Lib.runs (· == ',') ((infileArg.rdropWhile (· != '=')).dropLast)
  if h : '=' ∈ infileArg ∧ outfile ≠ [] ∧ infiles ≠ [] then
    some ⟨infiles, outfile, h.2.2, h.2.1⟩
  else none

section
variable (C : Config)

/-- The loop of `process_infiles`. -/
def processLoop : Session → List CStr →
    Except ReaderError (Session × List (List (Action Yield)) × CStr)
  | s, [] => .ok (s, [], [])
  | s, infile :: infiles =>
    match s.toWorld.readFile infile with
    | .error e => .error e
    | .ok (w, text) =>
      match inputLines text with
      | .error e => .error e
      | .ok input =>
        match (shellReader C.macros C.limit).preprocessAndExpandLines s.used C.metavars input with
        | .error e => .error e
        | .ok (st, actions) =>
          match C.processLines actions with
          | .error e => .error e
          | .ok out =>
            match processLoop ⟨w, st.global⟩ infiles with
            | .error e => .error e
            | .ok (s, rest, content) => .ok (s, actions :: rest, out ++ content)

/-- `process_infiles`. -/
def processInfiles (a : EditArg) (s : Session) : Except ReaderError (Session × Record) :=
  match processLoop C { s with toWorld := s.toWorld.openOutfile a.outfile } a.infiles with
  | .error e => .error e
  | .ok (s, actions, content) =>
    .ok ({ s with toWorld := s.toWorld.closeOutfile a.outfile content }, ⟨actions, content⟩)

/-- The loop of `main`, for `multi-edit`. -/
def multiEditLoop : List CStr → Session → Except ReaderError (Session × List Record)
  | [], s => .ok (s, [])
  | infileArg :: args, s =>
    match parseEditArg infileArg with
    | none => .error (.badArgument infileArg)
    | some a =>
      match processInfiles C a s with
      | .error e => .error e
      | .ok (s, r) =>
        match multiEditLoop args s with
        | .error e => .error e
        | .ok (s, rs) => .ok (s, r :: rs)

/-- `main`, for `multi-edit`: no symbol is used at first. -/
def multiEdit (args : List CStr) (w : World) : Except ReaderError (World × List Record) :=
  (multiEditLoop C args ⟨w, []⟩).map fun r => (r.1.toWorld, r.2)

end

end Metash

end Fischstaebchen
