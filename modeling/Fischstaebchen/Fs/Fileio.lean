/-
  Reading files (`common/fs/fileio.c`).

  `_read_file_to_str` appends what each `read()` returns to a dynstr, through a
  function that converts single chars, and strips the end of the result.

  * `readFileToStr_ensures`: the string is that of the whole content, however
    `read()` splits it, unless its last char is negative.
  * `readFile_iff`: `read_sysfs_file` and `read_cmdline_file` return 0 with the
    text and the words of the content if and only if the last byte that is not
    stripped is ASCII.
-/
import Fischstaebchen.DataTypes.Dynstr
import Fischstaebchen.Strutil.Split

namespace Fischstaebchen

open Lib

/-! ## `read_sysfs_file` and `read_cmdline_file` -/

/-- `_read_sysfs_file_convert_char`. -/
def readSysfsFileConvertChar : ConvertChar := fun strLen chr =>
  if chr = 0x00 then none
  else if chr ∈ [0x09, 0x0B, 0x0C, 0x20] then if strLen = 0 then none else some chr
  else if chr ∈ [0x0A, 0x0D] then if strLen = 0 then none else some 0x0A
  else some chr

/-- `_read_cmdline_file_convert_char`. -/
def readCmdlineFileConvertChar : ConvertChar := fun strLen chr =>
  if chr ∈ [0x00, 0x09, 0x0B, 0x0C, 0x20, 0x0A, 0x0D] then
    if strLen = 0 then none else some 0x20
  else some chr

/-- A file that can be opened, as what the calls of `read()` return: bytes (none
    at the end of the file), or an error. -/
abbrev Reads := List (Option (List UInt8))

/-- The read loop of `_read_file_to_str`: the last `bytes_read`, or none if
    appending failed, which returns at once. -/
def readLoop (fconvertChar : Option ConvertChar) :
    Reads → DynstrData → Alloc (Option ℤ × DynstrData)
  | [], dynstr | some [] :: _, dynstr => pure (some 0, dynstr)
  | none :: _, dynstr => pure (some (-1), dynstr)
  | some buffer :: reads, dynstr => do
    let r ← dynstrDataAppendStr dynstr buffer fconvertChar
    if r.1 ≠ 0 then pure (none, r.2) else readLoop fconvertChar reads r.2

/-- `_read_file_to_str` after the file was read: strips and terminates the
    string, and transfers it to `str_out`. -/
def finishStr (doRstrip : Bool) (retcode : ℤ) (dynstr : DynstrData) :
    Alloc (ℤ × Option (Block UInt8)) := do
  let r ← if doRstrip then defined (dynstrDataRstrip dynstr) else pure (0, dynstr)
  if r.1 ≠ 0 then pure (-1, none)
  else
    let r ← dynstrDataAppendChar r.2 0
    if r.1 ≠ 0 then pure (-1, none)
    else pure (retcode, (dynstrDataUnref r.2).1)

/-- `_read_file_to_str`: the return code and `*str_out`, for a `str_out` that is
    not NULL.  `file` is none if it cannot be opened. -/
def readFileToStr (file : Option Reads) (strOut : Option (Block UInt8))
    (fconvertChar : Option ConvertChar) (doRstrip : Bool) : Alloc (ℤ × Option (Block UInt8)) :=
  if strOut.isSome then pure (-6, strOut)
  else do
    let r ← dynstrDataInit 0
    if r.1 ≠ 0 then pure (-1, none)
    else match file with
      | none => pure (-1, none)
      | some reads => do
        let r ← readLoop fconvertChar reads r.2
        match r.1 with
        | none => pure (-1, none)
        | some bytesRead => finishStr doRstrip (if bytesRead ≠ 0 then -5 else 0) r.2

/-- `read_sysfs_file`. -/
def readSysfsFile (file : Option Reads) (strOut : Option (Block UInt8)) :
    Alloc (ℤ × Option (Block UInt8)) :=
  readFileToStr file strOut (some readSysfsFileConvertChar) true

/-- The bytes of a C string, as chars. -/
def byteStr (s : List UInt8) : CStr := s.map fun chr => Char.ofNat chr.toNat

/-- `strdup`, of a C string in memory. -/
def strdup (str : Block UInt8) : Alloc (Option CStr) := do
  let s ← defined (cstring str)
  let granted ← request
  pure (if granted then some (byteStr s) else none)

/-- The part of `_read_file_to_dynarray` that splits the data. -/
def splitFileData (retcode : ℤ) (fileData : Option (Block UInt8)) (darr : List CStr)
    (delimiters : CStr) : Alloc (ℤ × List CStr) :=
  if retcode = 0 then do
    let s ← defined (fileData.bind cstring)
    let r := strSplitUnsafe darr (some (byteStr s)) none (some delimiters) (-1)
    pure (if r.ret < 0 then -1 else retcode, r.darr)
  else pure (retcode, darr)

/-- The data that `_read_file_to_dynarray` copies to `file_data_out`, which is
    none if it is NULL. -/
def copyFileData (fileDataOut : Option (Option CStr)) (fileData : Option (Block UInt8)) :
    Alloc (Option (Option CStr)) :=
  match fileDataOut, fileData with
  | some _, some data => do
    let copy ← strdup data
    pure (some copy)
  | fileDataOut, _ => pure fileDataOut

/-- `_read_file_to_dynarray`: the return code, `file_data_out` and the entries of
    the dynarray, which has an array. -/
def readFileToDynarray (file : Option Reads) (fileDataOut : Option (Option CStr))
    (darr : List CStr) (delimiters : Option CStr) (fconvertChar : Option ConvertChar)
    (doRstrip : Bool) : Alloc (ℤ × Option (Option CStr) × List CStr) :=
  match delimiters with
  | none => pure (-7, fileDataOut, darr)
  | some delimiters =>
    if delimiters = [] then pure (-8, fileDataOut, darr)
    else do
      let r ← readFileToStr file none fconvertChar doRstrip
      let fileDataOut ← copyFileData fileDataOut r.2
      let s ← splitFileData r.1 r.2 darr delimiters
      pure (s.1, fileDataOut, s.2)

/-- `read_cmdline_file`. -/
def readCmdlineFile (file : Option Reads) (strOut : Option (Option CStr)) (darr : List CStr) :
    Alloc (ℤ × Option (Option CStr) × List CStr) :=
  readFileToDynarray file strOut darr (some " ".toList) (some readCmdlineFileConvertChar) true

/-! ## The content of a file -/

/-- The white space of the conversions. -/
def isSpaceByte (chr : UInt8) : Bool := [0x09, 0x0A, 0x0B, 0x0C, 0x0D, 0x20].contains chr

/-- NUL and white space separate the words of a command line. -/
def isSepByte (chr : UInt8) : Bool := chr = 0 || isSpaceByte chr

/-- The text of a sysfs file: no NULs, no white space at the start, newlines for
    carriage returns, and nothing to strip at the end. -/
def sysfsText (content : List UInt8) : List UInt8 :=
  rstripped (((content.filter (· ≠ 0)).dropWhile isSpaceByte).map fun chr =>
    if chr = 0x0D then 0x0A else chr)

/-- The words of a command line, without what is stripped at its end. -/
def cmdlineWords (content : List UInt8) : List (List UInt8) := runs isSepByte (rstripped content)

/-- The last byte that is not stripped is ASCII. -/
def EndsAscii (content : List UInt8) : Prop :=
  ∀ chr ∈ (rstripped content).getLast?, chr.toNat < 0x80

/-! ## Conversions -/

section
variable {convert : ConvertChar} {l s : List UInt8}

/-- Conversions that drop what they drop at the start of the string as long as
    it is empty. -/
theorem appendConverted_eq {lead : UInt8 → Bool} {out : UInt8 → Option UInt8}
    (hstart : ∀ chr, convert 0 chr = if lead chr then none else out chr)
    (hlater : ∀ n chr, n ≠ 0 → convert n chr = out chr)
    (hkept : ∀ chr, lead chr = false → out chr ≠ none) :
    appendConverted convert [] s = (s.dropWhile lead).filterMap out := by
  have hrest (l s : List UInt8) (hl : l ≠ []) :
      appendConverted convert l s = l ++ s.filterMap out := by
    induction s generalizing l with
    | nil => simp
    | cons chr s ih =>
      rw [appendConverted_cons, hlater _ _ (List.length_pos_iff.2 hl).ne',
        ih _ (List.append_ne_nil_of_left_ne_nil hl _), List.filterMap_cons, List.append_assoc]
      cases out chr <;> rfl
  induction s with
  | nil => rfl
  | cons chr s ih =>
    rw [appendConverted_cons, List.length_nil, hstart]
    cases hlead : lead chr with
    | true =>
      rw [List.dropWhile_cons_of_pos hlead, if_pos rfl, ← ih]
      rfl
    | false =>
      obtain ⟨chr', hout⟩ := Option.ne_none_iff_exists'.1 (hkept chr hlead)
      rw [List.dropWhile_cons_of_neg (by rw [hlead]; exact Bool.false_ne_true),
        if_neg Bool.false_ne_true, hout, List.filterMap_cons, hout]
      exact hrest [chr'] s (List.cons_ne_nil _ _)

/-- A conversion that only drops and inserts bytes to strip. -/
def KeepsUnstripped (convert : ConvertChar) : Prop :=
  ∀ n chr, if isStripped chr then (convert n chr).all isStripped = true
    else convert n chr = some chr

/-- What is not stripped is the same before and after the conversion. -/
theorem appendConverted_filter (hconvert : KeepsUnstripped convert) :
    (appendConverted convert l s).filter (fun chr => !isStripped chr) =
      (l ++ s).filter fun chr => !isStripped chr := by
  induction s generalizing l with
  | nil => rw [appendConverted_nil, List.append_nil]
  | cons chr s ih =>
    have hone : (convert l.length chr).toList.filter (fun chr => !isStripped chr) =
        [chr].filter fun chr => !isStripped chr := by
      have h := hconvert l.length chr
      cases hs : isStripped chr with
      | true =>
        rw [hs, if_pos rfl] at h
        cases hc : convert l.length chr with
        | none => simp [hs]
        | some chr' =>
          rw [hc, Option.all_some] at h
          simp [hs, h]
      | false =>
        rw [hs, if_neg Bool.false_ne_true] at h
        rw [h]
        rfl
    have hcons : chr :: s = [chr] ++ s := rfl
    rw [appendConverted_cons, ih, hcons]
    simp only [List.filter_append, hone, List.append_assoc]

/-- A conversion keeps the last byte that is not stripped. -/
theorem endsAscii_appendConverted (hconvert : KeepsUnstripped convert) :
    EndsAscii (appendConverted convert [] s) ↔ EndsAscii s := by
  unfold EndsAscii rstripped
  rw [getLast?_rdropWhile, getLast?_rdropWhile, appendConverted_filter hconvert, List.nil_append]

theorem rstripReturns_eq_zero_iff : rstripReturns l = 0 ↔ EndsAscii l := by
  have hfail : (-1 : ℤ) ≠ 0 := by simp
  unfold rstripReturns EndsAscii
  cases (rstripped l).getLast? with
  | none => exact iff_of_true rfl nofun
  | some chr =>
    simp only [Option.any_some, decide_eq_true_eq, Option.mem_some_iff, forall_eq']
    by_cases h : 0x80 ≤ chr.toNat
    · rw [if_pos h]
      exact iff_of_false hfail (by omega)
    · rw [if_neg h]
      exact iff_of_true rfl (by omega)

end

/-! ## The conversions of sysfs files and command lines -/

theorem isStripped_of_space {chr : UInt8} (h : isSpaceByte chr = true) : isStripped chr = true := by
  rw [isSpaceByte, List.contains_eq_mem, decide_eq_true_eq] at h
  simp only [List.mem_cons, List.not_mem_nil, or_false] at h
  rcases h with rfl | rfl | rfl | rfl | rfl | rfl <;> rfl

theorem isStripped_of_sep {chr : UInt8} (h : isSepByte chr = true) : isStripped chr = true := by
  rw [isSepByte, Bool.or_eq_true, decide_eq_true_eq] at h
  rcases h with rfl | h
  · rfl
  · exact isStripped_of_space h

/-- What `read_sysfs_file` makes of a char that it keeps. -/
def sysfsChar (chr : UInt8) : Option UInt8 :=
  if chr = 0 then none else some (if chr = 0x0D then 0x0A else chr)

theorem readSysfsFileConvertChar_eq (n : ℕ) (chr : UInt8) :
    readSysfsFileConvertChar n chr =
      if isSepByte chr = true ∧ n = 0 then none else sysfsChar chr := by
  unfold readSysfsFileConvertChar sysfsChar isSepByte isSpaceByte
  by_cases h0 : chr = 0
  · subst h0
    simp
  by_cases hsp : chr ∈ [0x09, 0x0B, 0x0C, 0x20]
  · simp only [List.mem_cons, List.not_mem_nil, or_false] at hsp
    rcases hsp with rfl | rfl | rfl | rfl <;> by_cases hn : n = 0 <;> simp [hn]
  by_cases hnl : chr ∈ [0x0A, 0x0D]
  · simp only [List.mem_cons, List.not_mem_nil, or_false] at hnl
    rcases hnl with rfl | rfl <;> by_cases hn : n = 0 <;> simp [hn]
  · rw [if_neg h0, if_neg hsp, if_neg hnl, if_neg h0]
    simp only [List.mem_cons, List.not_mem_nil, or_false, not_or] at hsp hnl
    simp [h0, hsp, hnl]

/-- What `read_cmdline_file` makes of a char that it keeps. -/
def cmdlineChar (chr : UInt8) : UInt8 := if isSepByte chr then 0x20 else chr

theorem readCmdlineFileConvertChar_eq (n : ℕ) (chr : UInt8) :
    readCmdlineFileConvertChar n chr =
      if isSepByte chr = true ∧ n = 0 then none else some (cmdlineChar chr) := by
  have hsep : chr ∈ [0x00, 0x09, 0x0B, 0x0C, 0x20, 0x0A, 0x0D] ↔ isSepByte chr = true := by
    unfold isSepByte isSpaceByte
    simp only [List.mem_cons, List.not_mem_nil, or_false, List.contains_eq_mem, Bool.or_eq_true,
      decide_eq_true_eq]
    tauto
  unfold readCmdlineFileConvertChar cmdlineChar
  by_cases h : isSepByte chr = true
  · rw [if_pos (hsep.2 h), if_pos h]
    by_cases hn : n = 0
    · rw [if_pos hn, if_pos ⟨h, hn⟩]
    · rw [if_neg hn, if_neg fun hand => hn hand.2]
  · rw [if_neg (hsep.not.2 h), if_neg fun hand => h hand.1, if_neg h]

theorem keepsUnstripped_sysfs : KeepsUnstripped readSysfsFileConvertChar := by
  intro n chr
  rw [readSysfsFileConvertChar_eq]
  cases hs : isStripped chr with
  | true =>
    rw [if_pos rfl, sysfsChar]
    split_ifs with h1 h2 h3
    · rfl
    · rfl
    · rfl
    · exact hs
  | false =>
    have hsep : ¬ isSepByte chr = true := fun h => by
      rw [isStripped_of_sep h] at hs
      cases hs
    have h0 : chr ≠ 0 := by
      rintro rfl
      cases hs
    have hcr : chr ≠ 0x0D := by
      rintro rfl
      cases hs
    rw [if_neg Bool.false_ne_true, if_neg fun h => hsep h.1, sysfsChar, if_neg h0, if_neg hcr]

theorem keepsUnstripped_cmdline : KeepsUnstripped readCmdlineFileConvertChar := by
  intro n chr
  rw [readCmdlineFileConvertChar_eq, cmdlineChar]
  cases hs : isStripped chr with
  | true =>
    rw [if_pos rfl]
    split_ifs
    · rfl
    · rfl
    · exact hs
  | false =>
    have hsep : ¬ isSepByte chr = true := fun h => by
      rw [isStripped_of_sep h] at hs
      cases hs
    rw [if_neg Bool.false_ne_true, if_neg fun h => hsep h.1, if_neg hsep]

/-- **The text of a sysfs file.** -/
theorem rstripped_sysfs (content : List UInt8) :
    rstripped (appendConverted readSysfsFileConvertChar [] content) = sysfsText content := by
  have hstart (chr : UInt8) : readSysfsFileConvertChar 0 chr =
      if isSepByte chr then none else sysfsChar chr := by
    rw [readSysfsFileConvertChar_eq]
    simp
  have hlater (n : ℕ) (chr : UInt8) (hn : n ≠ 0) :
      readSysfsFileConvertChar n chr = sysfsChar chr := by
    rw [readSysfsFileConvertChar_eq, if_neg fun h => hn h.2]
  have hkept (chr : UInt8) (h : isSepByte chr = false) : sysfsChar chr ≠ none := by
    have h0 : chr ≠ 0 := by
      rintro rfl
      cases h
    rw [sysfsChar, if_neg h0]
    exact Option.some_ne_none _
  rw [appendConverted_eq hstart hlater hkept, sysfsText]
  congr 1
  -- dropping the NULs first makes no difference
  induction content with
  | nil => rfl
  | cons chr s ih =>
    by_cases h0 : chr = 0
    · subst h0
      rw [List.dropWhile_cons_of_pos rfl, ih]
      rfl
    rw [List.filter_cons_of_pos (by simpa using h0)]
    cases hsp : isSpaceByte chr with
    | true =>
      have hsep : isSepByte chr = true := by rw [isSepByte, hsp, Bool.or_true]
      rw [List.dropWhile_cons_of_pos hsep, List.dropWhile_cons_of_pos hsp, ih]
    | false =>
      have hsep : ¬ isSepByte chr = true := by simp [isSepByte, hsp, h0]
      have hnot : ¬ isSpaceByte chr = true := by rw [hsp]; exact Bool.false_ne_true
      have hfilter (s : List UInt8) : s.filterMap sysfsChar =
          (s.filter (· ≠ 0)).map fun chr => if chr = 0x0D then 0x0A else chr := by
        rw [← List.filterMap_eq_map, List.filterMap_filter]
        congr 1
        funext chr
        by_cases h : chr = 0 <;> simp [sysfsChar, h]
      rw [List.dropWhile_cons_of_neg hsep, List.dropWhile_cons_of_neg hnot, hfilter,
        List.filter_cons_of_pos (by simpa using h0)]

theorem appendConverted_cmdline (content : List UInt8) :
    appendConverted readCmdlineFileConvertChar [] content =
      (content.dropWhile isSepByte).map cmdlineChar := by
  rw [← List.filterMap_eq_map]
  refine appendConverted_eq (fun chr => ?_) (fun n chr hn => ?_) fun chr _ => Option.some_ne_none _
  · rw [readCmdlineFileConvertChar_eq]
    simp
  · rw [readCmdlineFileConvertChar_eq, if_neg fun h => hn h.2]
    rfl

/-- **The words of a command line**: its fields between spaces after the
    conversion. -/
theorem runs_cmdline (content : List UInt8) :
    runs (· == 0x20) (rstripped (appendConverted readCmdlineFileConvertChar [] content)) =
      cmdlineWords content := by
  have hstripped (chr : UInt8) : isStripped (cmdlineChar chr) = isStripped chr := by
    unfold cmdlineChar
    by_cases h : isSepByte chr = true
    · rw [if_pos h, isStripped_of_sep h]
      rfl
    · rw [if_neg h]
  have hspace (chr : UInt8) : (cmdlineChar chr == 0x20) = isSepByte chr := by
    unfold cmdlineChar
    by_cases h : isSepByte chr = true
    · rw [if_pos h, h]
      rfl
    · rw [if_neg h, Bool.eq_false_iff.2 h, beq_eq_false_iff_ne]
      rintro rfl
      exact h rfl
  rw [appendConverted_cmdline, rstripped, rdropWhile_map hstripped, runs_map hspace,
    rdropWhile_dropWhile fun chr => isStripped_of_sep, runs_dropWhile, cmdlineWords, rstripped]
  -- a word has no separators, so its chars are the ones of the file
  have hword (w : List UInt8) (hw : w ∈ runs isSepByte (content.rdropWhile isStripped)) :
      w.map cmdlineChar = id w := by
    refine (List.map_congr_left fun chr hchr => ?_).trans (List.map_id w)
    rw [cmdlineChar, mem_of_mem_runs hw chr hchr]
    rfl
  exact (List.map_congr_left hword).trans (List.map_id _)

/-! ## Reading a file -/

section
variable {refuses : Prop} {convert : ConvertChar} {d : DynstrData} {l : List UInt8}

/-- The loop appends the whole content, however it is split. -/
theorem readLoop_ensures {chunks : List (List UInt8)} (hchunks : ∀ c ∈ chunks, c ≠ [])
    (h : d.Holds l) (hd : d.data ≠ none) (hsize : l.length + chunks.flatten.length < sizeMax / 4) :
    Ensures False (readLoop (some convert) (chunks.map some) d) fun r =>
      r.1 = some 0 ∧ r.2.Holds (appendConverted convert l chunks.flatten) ∧ r.2.data ≠ none := by
  induction chunks generalizing d l with
  | nil => exact Ensures.pure ⟨rfl, h, hd⟩
  | cons chunk chunks ih =>
    obtain ⟨chr, rest, hchunk⟩ :=
      List.exists_cons_of_ne_nil (hchunks chunk List.mem_cons_self)
    rw [List.flatten_cons, List.length_append] at hsize
    have hloop : readLoop (some convert) ((chunk :: chunks).map some) d =
        (dynstrDataAppendStr d chunk (some convert) >>= fun r =>
          if r.1 ≠ 0 then pure (none, r.2)
          else readLoop (some convert) (chunks.map some) r.2) := by
      rw [List.map_cons, hchunk, readLoop]
      exact List.cons_ne_nil _ _
    rw [hloop]
    refine Outcome.bind (dynstrDataAppendStr_ensures h (by omega)) (fun d₁ ⟨h₁, hd₁⟩ => ?_) False.elim
    rw [List.flatten_cons, appendConverted_append]
    refine ih (fun c hc => hchunks c (List.mem_cons_of_mem _ hc)) h₁ hd₁ ?_
    have := length_appendConverted_le convert l chunk
    omega

/-- **`_read_file_to_str`** if every request is granted and no read fails: the
    converted content without its end, or an error if what remains ends with a
    negative char. -/
theorem readFileToStr_ensures {chunks : List (List UInt8)} (hchunks : ∀ c ∈ chunks, c ≠ [])
    (hsize : chunks.flatten.length + 1 < sizeMax / 4)
    (hnul : 0 ∉ rstripped (appendConverted convert [] chunks.flatten)) :
    Ensures False (readFileToStr (some (chunks.map some)) none (some convert) true) fun r =>
      (rstripReturns (appendConverted convert [] chunks.flatten) = 0 ∧ r.1 = 0 ∧
        ∃ cells, r.2 = some cells ∧
          cstring cells = some (rstripped (appendConverted convert [] chunks.flatten))) ∨
      (rstripReturns (appendConverted convert [] chunks.flatten) ≠ 0 ∧ r = (-1, none)) := by
  rw [readFileToStr, Option.isSome_none, if_neg Bool.false_ne_true]
  refine Outcome.bind dynstrDataInit_ensures (fun d ⟨h, hd⟩ => ?_) False.elim
  rw [if_neg fun h => h rfl]
  refine Ensures.bind (readLoop_ensures hchunks h hd (by rw [List.length_nil]; omega))
    fun r ⟨hret, h₁, hd₁⟩ => ?_
  obtain ⟨ret, d₁⟩ := r
  obtain rfl : ret = some 0 := hret
  set text := appendConverted convert [] chunks.flatten with htext
  obtain ⟨d₂, hstrip, h₂, -⟩ := dynstrDataRstrip_eq h₁ hd₁
  refine Ensures.bind (P := fun r => r = (rstripReturns text, d₂))
    (ensures_defined hstrip rfl) fun r hr => ?_
  subst hr
  dsimp only
  by_cases hzero : rstripReturns text = 0
  · have hlen : (rstripped text).length + 1 < sizeMax / 4 := by
      have hle : (rstripped text).length ≤ text.length :=
        (List.rdropWhile_prefix _ _).length_le
      have := length_appendConverted_le convert [] chunks.flatten
      rw [List.length_nil, ← htext] at this
      omega
    rw [if_neg fun h => h hzero]
    refine Outcome.bind (dynstrDataAppendChar_ensures h₂ hlen) (fun d₃ h₃ => ?_) False.elim
    rw [if_neg fun h => h rfl]
    refine Ensures.pure (.inl ⟨hzero, rfl, ?_⟩)
    obtain ⟨cells, heq, htake, -, -⟩ :=
      h₃.data (h₃.data_ne_none_of_ne_nil (List.append_ne_nil_of_right_ne_nil _ nofun))
    refine ⟨cells, by rw [heq]; rfl, cstring_eq ?_ ?_ hnul⟩
    · have := congrArg (List.take (rstripped text).length) htake
      rwa [List.take_take, min_eq_left (by simp), ← List.map_take, List.take_left' rfl] at this
    · rw [Block.load_of_take htake (by simp), List.getElem?_concat_length]
  · rw [if_pos hzero]
    exact Ensures.pure (.inr ⟨hzero, rfl⟩)

end

theorem not_mem_sysfsText (content : List UInt8) : 0 ∉ sysfsText content := by
  intro h
  have h' := (List.rdropWhile_prefix _ _).subset h
  obtain ⟨chr, hchr, h0⟩ := List.mem_map.1 h'
  have hmem := List.mem_filter.1 ((List.dropWhile_sublist _).subset hchr)
  split_ifs at h0 with hcr
  · cases h0
  · simp [h0] at hmem

theorem not_mem_cmdline (content : List UInt8) :
    0 ∉ rstripped (appendConverted readCmdlineFileConvertChar [] content) := by
  intro h
  have h' := (List.rdropWhile_prefix _ _).subset h
  rw [appendConverted_cmdline] at h'
  obtain ⟨chr, -, h0⟩ := List.mem_map.1 h'
  unfold cmdlineChar at h0
  split_ifs at h0 with hsep
  · cases h0
  · exact hsep (by rw [h0]; rfl)

/-- A byte is the space if its char is. -/
theorem isDelim_space (chr : UInt8) :
    isDelim " ".toList (Char.ofNat chr.toNat) = (chr == 0x20) := by
  have hdelim : isDelim " ".toList (Char.ofNat chr.toNat) =
      decide (Char.ofNat chr.toNat = ' ') := isDelim_singleton ' ' _
  rw [hdelim]
  by_cases h : chr = 0x20
  · subst h
    rfl
  · rw [beq_eq_false_iff_ne.2 h, decide_eq_false_iff_not]
    have hbyte : ∀ n < 2 ^ 8, Char.ofNat n = ' ' → n = 0x20 := by decide +kernel
    exact fun hchar => h (UInt8.toNat_inj.1 (hbyte _ chr.toNat_lt hchar))

/-- The fields of a C string between spaces. -/
theorem strSplitUnsafe_words (darr : List CStr) (s : List UInt8) :
    let r := strSplitUnsafe darr (some (byteStr s)) none (some " ".toList) (-1)
    r.ret = (runs (· == 0x20) s).length ∧ r.darr = darr ++ (runs (· == 0x20) s).map byteStr := by
  have hv : strSplitSanityChecks (some (byteStr s)) none (some " ".toList) (-1) = 0 := rfl
  obtain ⟨h0, hdarr, hnum⟩ := doStrSplit_fields darr (byteStr s) hv
  have hfields : splitFields none (some " ".toList) (byteStr s) =
      (runs (· == 0x20) s).map byteStr := runs_map isDelim_space s
  rw [hfields, List.length_map] at hnum
  rw [hfields] at hdarr
  have hr : strSplitUnsafe darr (some (byteStr s)) none (some " ".toList) (-1) =
      ⟨darr ++ (runs (· == 0x20) s).map byteStr, (runs (· == 0x20) s).length,
        some (doStrSplit darr (byteStr s) none (some " ".toList)).2.2⟩ := by
    rw [strSplitUnsafe, if_neg (fun h => h hv)]
    dsimp only [Option.getD_some]
    rw [if_neg (fun h => h h0), hdarr, hnum]
  rw [hr]
  exact ⟨rfl, rfl⟩

/-- **`read_cmdline_file`** if every request is granted and no read fails. -/
theorem readCmdlineFile_ensures {chunks : List (List UInt8)} (hchunks : ∀ c ∈ chunks, c ≠ [])
    (hsize : chunks.flatten.length + 1 < sizeMax / 4) (darr : List CStr) :
    Ensures False (readCmdlineFile (some (chunks.map some)) none darr) fun r =>
      (EndsAscii chunks.flatten ∧
        r = (0, none, darr ++ (cmdlineWords chunks.flatten).map byteStr)) ∨
      (¬ EndsAscii chunks.flatten ∧ r.1 = -1) := by
  have hascii : rstripReturns (appendConverted readCmdlineFileConvertChar [] chunks.flatten) = 0 ↔
      EndsAscii chunks.flatten :=
    rstripReturns_eq_zero_iff.trans (endsAscii_appendConverted keepsUnstripped_cmdline)
  refine Ensures.bind (readFileToStr_ensures hchunks hsize (not_mem_cmdline _)) fun r hr => ?_
  obtain ⟨ret, data⟩ := r
  rcases hr with ⟨hret, rfl, cells, rfl, hcells⟩ | ⟨hret, hr⟩
  · obtain ⟨hnum, hwords⟩ := strSplitUnsafe_words darr
      (rstripped (appendConverted readCmdlineFileConvertChar [] chunks.flatten))
    rw [runs_cmdline] at hnum hwords
    refine Ensures.bind (P := fun out => out = none) (Ensures.pure rfl) fun out hout => ?_
    subst hout
    rw [splitFileData, if_pos rfl]
    refine Ensures.bind (P := fun r => r = (0, darr ++ (cmdlineWords chunks.flatten).map byteStr))
      (Ensures.bind (ensures_defined hcells rfl) fun s hs => ?_)
      fun r hr => Ensures.pure (.inl ⟨hascii.1 hret, by rw [hr]⟩)
    subst hs
    refine Ensures.pure ?_
    rw [hwords, if_neg (by rw [hnum]; omega)]
  · obtain ⟨rfl, rfl⟩ := Prod.mk.inj hr
    have hfail : (-1 : ℤ) ≠ 0 := by simp
    refine Ensures.bind (P := fun out => out = none) (Ensures.pure rfl) fun out hout => ?_
    subst hout
    rw [splitFileData, if_neg hfail]
    exact Ensures.bind (Ensures.pure (Q := fun r => r = (-1, darr)) rfl)
      fun r hr => Ensures.pure (.inr ⟨hascii.not.1 hret, by rw [hr]⟩)

/-- An allocator that grants every request. -/
def grantAll : Allocator := fun _ => true

/-- `read_sysfs_file` returns 0 with the text of the content. -/
def ReadsSysfsFile (chunks : List (List UInt8)) : Prop :=
  ∃ cells a', (readSysfsFile (some (chunks.map some)) none).run grantAll =
      some ((0, some cells), a') ∧ cstring cells = some (sysfsText chunks.flatten)

/-- `read_cmdline_file` returns 0 and appends the words of the content. -/
def ReadsCmdlineFile (chunks : List (List UInt8)) (darr : List CStr) : Prop :=
  ∃ a', (readCmdlineFile (some (chunks.map some)) none darr).run grantAll =
    some ((0, none, darr ++ (cmdlineWords chunks.flatten).map byteStr), a')

/-- **Reading files** whose bytes arrive in any pieces gives the text, or the
    words, of the content if and only if the last byte that is not stripped is
    ASCII.  (The requests are granted, so the content is not too large.) -/
theorem readFile_iff {chunks : List (List UInt8)} (hchunks : ∀ c ∈ chunks, c ≠ [])
    (hsize : chunks.flatten.length + 1 < sizeMax / 4) (darr : List CStr) :
    (ReadsSysfsFile chunks ↔ EndsAscii chunks.flatten) ∧
      (ReadsCmdlineFile chunks darr ↔ EndsAscii chunks.flatten) := by
  have hgrants : Admits False grantAll := .inr fun _ => rfl
  have hascii : rstripReturns (appendConverted readSysfsFileConvertChar [] chunks.flatten) = 0 ↔
      EndsAscii chunks.flatten :=
    rstripReturns_eq_zero_iff.trans (endsAscii_appendConverted keepsUnstripped_sysfs)
  constructor
  · have hnul : 0 ∉ rstripped (appendConverted readSysfsFileConvertChar [] chunks.flatten) := by
      rw [rstripped_sysfs]
      exact not_mem_sysfsText _
    obtain ⟨r, a', hrun, -, hr⟩ := readFileToStr_ensures hchunks hsize hnul _ hgrants
    rw [rstripped_sysfs, hascii] at hr
    constructor
    · rintro ⟨cells, a'', hrun', -⟩
      rcases hr with ⟨h, -⟩ | ⟨-, rfl⟩
      · exact h
      · rw [readSysfsFile, hrun] at hrun'
        cases hrun'
    · intro h
      obtain ⟨-, hret, cells, hout, hcells⟩ := hr.resolve_right fun hr => hr.1 (hascii.2 h)
      obtain ⟨ret, out⟩ := r
      obtain rfl : ret = 0 := hret
      obtain rfl : out = some cells := hout
      exact ⟨cells, a', hrun, hcells⟩
  · obtain ⟨r, a', hrun, -, hr⟩ := readCmdlineFile_ensures hchunks hsize darr _ hgrants
    constructor
    · rintro ⟨a'', hrun'⟩
      rw [hrun] at hrun'
      obtain ⟨rfl, -⟩ := Prod.mk.inj (Option.some.inj hrun')
      rcases hr with ⟨h, -⟩ | ⟨-, hret⟩
      · exact h
      · cases hret
    · intro h
      obtain ⟨-, rfl⟩ := hr.resolve_right fun hr => hr.1 h
      exact ⟨a', hrun⟩

/-- A line that is read in two pieces. -/
theorem readFile_iff_ascii :
    ReadsSysfsFile [[0x20, 0x61], [0x62, 0x0A]] ∧
      ReadsCmdlineFile [[0x20, 0x61], [0x62, 0x0A]] [] := by
  have hascii : EndsAscii [[0x20, 0x61], [0x62, 0x0A]].flatten := by
    intro chr hchr
    obtain rfl : 0x62 = chr := Option.some.inj hchr
    decide
  have hchunks : ∀ c ∈ [[0x20, 0x61], [0x62, 0x0A]], c ≠ ([] : List UInt8) := by simp
  have h := readFile_iff hchunks (by decide) []
  exact ⟨h.1.2 hascii, h.2.2 hascii⟩

/-- The content "é" in UTF-8 cannot be read. -/
theorem readSysfsFile_utf8 :
    ((readSysfsFile (some [some [0xC3, 0xA9]]) none).run grantAll).map Prod.fst =
        some (-1, none) ∧ ¬ ReadsSysfsFile [[0xC3, 0xA9]] := by
  have hrun : ((readSysfsFile (some [some [0xC3, 0xA9]]) none).run grantAll).map Prod.fst =
      some (-1, none) := by decide +kernel
  refine ⟨hrun, ?_⟩
  rintro ⟨cells, a', hread, -⟩
  have hfst := congrArg (Option.map Prod.fst) hread
  rw [Option.map_some] at hfst
  have := hrun.symm.trans hfst
  cases this

end Fischstaebchen
