/-
  The builtins of metash (`scripts/metash`: `ShellVar`, `SHELL_DEFSYMS`,
  `ShellMacros.expand_defsym` and `MetavarShellFileReader.expand_builtin`).

  `defsym` defines symbols of the tables.  A symbol that is not weak is defined only once:
  the tables are global, and keep which symbols were used.

  * `expandDefsym_eq`: the symbols that are defined are the granted requests.
  * `expandBuiltin_plain`: a definition is a plain line.
-/
import Fischstaebchen.Lib.Once
import Fischstaebchen.Metash.Preprocess

namespace Fischstaebchen

namespace Metash

/-! ## Symbols -/

/-- `ShellVar`, but whether it is used. -/
structure ShellVar where
  value : MetaValue
  weak : Bool
  const : Bool
  safequote : Option Bool
deriving DecidableEq

def ShellVar.once (v : ShellVar) : Bool := !v.weak

/-- `str` of an int. -/
def decimal : ℤ → CStr
  | .ofNat n => Nat.toDigits 10 n
  | .negSucc n => '-' :: Nat.toDigits 10 (n + 1)

/-- `_unicode`. -/
def MetaValue.unicode : MetaValue → CStr
  | str s => s
  | int n => decimal n

/-- `get_value_str`: the value, and the quoted value. -/
def ShellVar.getValueStr (v : ShellVar) : CStr × CStr :=
  let unquoted := v.value.unicode
  let quote (q : Char) : CStr := q :: unquoted ++ [q]
  match v.value with
  | .int _ => (unquoted, unquoted)
  | .str s =>
    if (["y", "n", "true", "false", ""].map String.toList).contains s then (unquoted, unquoted)
    else
      match v.safequote with
      | none => (unquoted, quote (if unquoted.contains '$' then '"' else '\''))
      | some true => (unquoted, quote '\'')
      | some false => (unquoted, quote '"')

/-- `get_var_def_str`. -/
def ShellVar.getVarDefStr (v : ShellVar) (varname indent : CStr) : CStr :=
  let value := v.getValueStr
  if v.const then
    if v.weak then
      indent ++ "[ -n \"$\x7b".toList ++ varname ++ "+SET\x7d\" ] || readonly ".toList ++
        varname ++ "=".toList ++ value.2
    else indent ++ "readonly ".toList ++ varname ++ "=".toList ++ value.2
  else if v.weak then
    indent ++ ": $\x7b".toList ++ varname ++ ":=".toList ++ value.1 ++ "\x7d".toList
  else indent ++ varname ++ "=".toList ++ value.2

/-- An entry of a table: each is constant or weak. -/
structure Symbol where
  name : CStr
  var : ShellVar
  const_or_weak : var.const = true ∨ var.weak = true
deriving DecidableEq

/-- `ShellVar (value, const=True, safequote=safequote)`. -/
def Symbol.const (name : String) (value : MetaValue) (safequote : Option Bool) : Symbol :=
  ⟨name.toList, ⟨value, false, true, safequote⟩, .inl rfl⟩

/-- `ShellVar (value, weak=True)`. -/
def Symbol.weak (name value : String) : Symbol :=
  ⟨name.toList, ⟨.str value.toList, true, false, none⟩, .inr rfl⟩

/-- `SHELL_DEFSYM_SYSEXITS`, sorted. -/
def shellDefsymSysexits : List Symbol :=
  [.const "EX_DIE" (.int 255) none, .const "EX_ERR" (.int 1) none,
   .const "EX_FUNC_UNDEF" (.int 101) none, .const "EX_NOT_SUPPORTED" (.int 222) none,
   .const "EX_OK" (.int 0) none, .const "EX_OSERR" (.int 71) none,
   .const "EX_SHIFT_ERR" (.int 249) none, .const "EX_SOFTWARE" (.int 70) none,
   .const "EX_USAGE" (.int 64) none]

/-- `SHELL_DEFSYM_IFS`, sorted. -/
def shellDefsymIfs : List Symbol :=
  [.const "IFS_DEFAULT" (.str "$\x7bIFS\x7d".toList) (some false),
   .const "IFS_NEWLINE" (.str ['\n']) (some true)]

/-- `SHELL_DEFSYM_MISC`, sorted. -/
def shellDefsymMisc : List Symbol :=
  [.weak "DEVNULL" "/dev/null", .weak "LOGGER" "true",
   .const "NEWLINE" (.str ['\n']) (some true)]

/-- `SHELL_DEFSYMS`, sorted. -/
def shellDefsyms : List (String × List Symbol) :=
  [("ifs", shellDefsymIfs), ("misc", shellDefsymMisc), ("sysexits", shellDefsymSysexits)]

/-! ## `defsym` -/

/-- The entries with these keys. -/
def lookupKeys (table : List Symbol) : List CStr → Except ReaderError (List Symbol)
  | [] => .ok []
  | key :: keys =>
    match table.find? fun s => s.name == key with
    | none => .error (.keyError [key])
    | some s =>
      match lookupKeys table keys with
      | .error e => .error e
      | .ok ss => .ok (s :: ss)

/-- `var_iter`. -/
def defsymSymbols (argsTuple : Option CStr × Option CStr) : Except ReaderError (List Symbol) :=
  let category := lower (argsTuple.1.getD [])
  let iter (table : List Symbol) : Except ReaderError (List Symbol) :=
    match argsTuple.2 with
    | some keys => lookupKeys table (Lib.runs isSpace keys)
    | none => .ok table
  if (["", "_", "all", "@all"].map String.toList).contains category then
    iter (shellDefsyms.flatMap Prod.snd)
  else
    match shellDefsyms.find? fun t => t.1.toList == category with
    | none => .error (.keyError [category])
    | some table => iter table.2

/-- `mark_as_used`; the result is the used symbols, if it is true. -/
def Symbol.markAsUsed (s : Symbol) (used : List Symbol) : Option (List Symbol) :=
  if s.var.once = false ∨ s ∉ used then some (s :: used) else none

/-- The loop of `expand_defsym`. -/
def expandDefsym (indent : CStr) : List Symbol → List Symbol → List Symbol × List CStr
  | used, [] => (used, [])
  | used, s :: ss =>
    match s.markAsUsed used with
    | none => expandDefsym indent used ss
    | some used =>
      let r := expandDefsym indent used ss
      (r.1, s.var.getVarDefStr s.name indent :: r.2)

/-! ## `shlex.split` -/

/-- The states of `shlex`, with the token that is read. -/
inductive Shlex
  | space
  | word (token : CStr)
  | quoted (q : Char) (token : CStr)
  | escaped (token : CStr)
  | quotedEscaped (token : CStr)

/-- The end of a token. -/
def isShlexSpace (c : Char) : Bool := [' ', '\t', '\r', '\n'].contains c

def Shlex.step : Shlex → Char → Shlex × List CStr
  | space, c =>
    if isShlexSpace c then (space, [])
    else if c = '\\' then (escaped [], [])
    else if c = '\'' ∨ c = '"' then (quoted c [], [])
    else (word [c], [])
  | word token, c =>
    if isShlexSpace c then (space, [token])
    else if c = '\'' ∨ c = '"' then (quoted c token, [])
    else if c = '\\' then (escaped token, [])
    else (word (token ++ [c]), [])
  | quoted q token, c =>
    if c = q then (word token, [])
    else if c = '\\' ∧ q = '"' then (quotedEscaped token, [])
    else (quoted q (token ++ [c]), [])
  | escaped token, c => (word (token ++ [c]), [])
  | quotedEscaped token, c =>
    (quoted '"' (if c = '\\' ∨ c = '"' then token ++ [c] else token ++ ['\\', c]), [])

/-- `shlex.split`; a quotation that is not closed is an error. -/
def shlexSplit : Shlex → CStr → Option (List CStr)
  | .space, [] => some []
  | .word token, [] => some [token]
  | .quoted _ _, [] | .escaped _, [] | .quotedEscaped _, [] => none
  | st, c :: cs => (shlexSplit (st.step c).1 cs).map ((st.step c).2 ++ ·)

/-! ## Builtins -/

/-- A call of a macro. -/
structure MacroCall where
  builtinName : CStr
  argsStr : Option CStr
  argsTuple : Option CStr × Option CStr
  argv : List CStr
  instruction : Instruction

/-- The macros other than `defsym`: each result is a line, or `False`.  They keep no state. -/
abbrev Macros := CStr → Option (MacroCall → Except ReaderError (List (Option CStr)))

/-- What a builtin asks for: symbols, or lines. -/
inductive Expansion
  | symbols (ss : List Symbol)
  | lines (ls : List CStr)

section
variable (macros : Macros) (o : Origin) (i : Instruction)

/-- The lines, without a `False` among them. -/
def macroLines : List (Option CStr) → Except ReaderError (List CStr)
  | [] => .ok []
  | none :: _ => .error (.badInstruction o "expansion error".toList)
  | some line :: results =>
    match macroLines results with
    | .error e => .error e
    | .ok lines => .ok (line :: lines)

/-- `expand_builtin`, up to the use of the symbols. -/
def parseBuiltin : Except ReaderError Expansion :=
  match splitFirst (i.args.getD []) with
  -- `i_argv[0]`
  | none => .error .indexError
  | some (name, argsStr) =>
    let argsTuple : Option CStr × Option CStr :=
      match argsStr.bind splitFirst with
      | none => (none, none)
      | some (a, b) => (some a, b)
    let argv := match argsStr with
      | none => some []
      | some s => shlexSplit .space s
    if name = "defsym".toList then
      match argv with
      | none => .error (.valueError o)
      | some _ =>
        match defsymSymbols argsTuple with
        | .error e => .error e
        | .ok ss => .ok (.symbols ss)
    else
      match macros name with
      | none => .error (.shellMacroNotDefined name o)
      | some macroFn =>
        match argv with
        | none => .error (.valueError o)
        | some argv =>
          match macroFn ⟨name, argsStr, argsTuple, argv, i⟩ with
          | .error e => .error e
          | .ok results =>
            match macroLines o results with
            | .error e => .error e
            | .ok lines => .ok (.lines lines)

/-- The end of `expand_builtin`: the remainder of the line follows the last result. -/
def addRemainder (remainder : CStr) : List CStr → List CStr
  | [] => []
  | [line] => [line ++ remainder]
  | line :: lines => line :: addRemainder remainder lines

/-- The symbols that are used afterwards, and the lines. -/
def Expansion.expand (used : List Symbol) : Expansion → List Symbol × List CStr
  | symbols ss =>
    let r := expandDefsym i.lineIndent used ss
    (r.1, addRemainder i.lineRemainder r.2)
  | lines ls => (used, addRemainder i.lineRemainder ls)

/-- `expand_builtin`. -/
def expandBuiltin (used : List Symbol) : Except ReaderError (List Symbol × List CStr) :=
  (parseBuiltin macros o i).map (Expansion.expand i used)

end

/-! ## What `defsym` defines -/

/-- The symbols that are defined only once. -/
def Symbol.once (s : Symbol) : Bool := s.var.once

/-- **The requests that are granted are defined.** -/
theorem expandDefsym_eq (indent : CStr) (used ss : List Symbol) :
    expandDefsym indent used ss =
      (Lib.usedAfter Symbol.once used ss,
        (Lib.granted Symbol.once used ss).map fun s => s.var.getVarDefStr s.name indent) := by
  induction ss generalizing used with
  | nil => rfl
  | cons s ss ih =>
    rw [expandDefsym, Symbol.markAsUsed, Lib.granted, Lib.usedAfter]
    by_cases h : s.once = true ∧ s ∈ used
    · have hmark : ¬(s.var.once = false ∨ s ∉ used) := by
        rintro (hf | hu)
        · exact absurd (hf.symm.trans h.1) Bool.false_ne_true
        · exact hu h.2
      rw [if_neg hmark, if_pos h, if_pos h]
      exact ih used
    · have hmark : s.var.once = false ∨ s ∉ used := by
        by_cases hu : s ∈ used
        · exact .inl (Bool.eq_false_iff.2 fun ho => h ⟨ho, hu⟩)
        · exact .inr hu
      rw [if_pos hmark, if_neg h, if_neg h]
      simp only [ih, List.map_cons]

theorem length_addRemainder (remainder : CStr) (lines : List CStr) :
    (addRemainder remainder lines).length = lines.length := by
  induction lines using addRemainder.induct with
  | case1 => rfl
  | case2 line => rfl
  | case3 line lines hne ih => rw [addRemainder, List.length_cons, ih, List.length_cons]; exact hne

theorem addRemainder_plain {lines : List CStr} (h : ∀ line ∈ lines, StartsPlain line)
    (remainder : CStr) : ∀ line ∈ addRemainder remainder lines, StartsPlain line := by
  induction lines using addRemainder.induct with
  | case1 => exact h
  | case2 line =>
    intro x hx
    rw [addRemainder, List.mem_singleton] at hx
    rw [hx]
    exact (h line List.mem_cons_self).append remainder
  | case3 line lines hne ih =>
    rw [addRemainder]
    · intro x hx
      rcases List.mem_cons.1 hx with rfl | hx
      · exact h x List.mem_cons_self
      · exact ih (fun y hy => h y (List.mem_cons_of_mem _ hy)) x hx
    · exact hne

/-- **A definition is a plain line.** -/
theorem Symbol.getVarDefStr_plain (s : Symbol) {indent : CStr}
    (hindent : ∀ c ∈ indent, isSpace c = true) :
    StartsPlain (s.var.getVarDefStr s.name indent) := by
  obtain ⟨name, ⟨value, weak, const, safequote⟩, hkind⟩ := s
  rw [ShellVar.getVarDefStr]
  dsimp only at hkind ⊢
  split
  · split
    · exact ⟨indent, '[', _, by simp; rfl, hindent, by decide⟩
    · exact ⟨indent, 'r', _, by simp; rfl, hindent, by decide⟩
  · next hconst =>
    rw [if_pos (hkind.resolve_left hconst)]
    exact ⟨indent, ':', _, by simp; rfl, hindent, by decide⟩

theorem expand_symbols_plain (i : Instruction) (used ss : List Symbol) :
    ∀ line ∈ ((Expansion.symbols ss).expand i used).2, StartsPlain line := by
  rw [Expansion.expand, expandDefsym_eq]
  refine addRemainder_plain ?_ _
  intro line hline
  obtain ⟨s, -, rfl⟩ := List.mem_map.1 hline
  exact s.getVarDefStr_plain i.indent_space

end Metash

end Fischstaebchen
