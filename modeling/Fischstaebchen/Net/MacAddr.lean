/-
  MAC addresses and their text form (`common/net/data_types/mac_addr.c`).

  An address has six bytes.  `fischnet_mac_addr_get_str` writes it as six blocks
  of two chars; `fischnet_mac_addr_init_str` reads six blocks of hexadecimal
  digits.

  * `MacAddr.macAddrCreateStr_eq`: what the encoder writes, all but the last cell of
    its array.
  * `MacAddr.macAddrInitStr_eq_success_iff`, `MacAddr.foldBlock_toNat`: what the
    decoder accepts, and that a byte is the value of its block modulo 256.
  * `macAddr_codec_iff`: when both do what they should.
-/
import Fischstaebchen.DataTypes.Dynstr
import Fischstaebchen.Strutil.Convert

namespace Fischstaebchen

open Lib

/-! ## Addresses -/

/-- `FISCHNET_MAC_ADDR_BYTE_COUNT`. -/
def macAddrByteCount : ℕ := 6

/-- `unsigned char addr [FISCHNET_MAC_ADDR_BYTE_COUNT]`. -/
abbrev MacBytes := { addr : List UInt8 // addr.length = macAddrByteCount }

/-- `struct fischnet_mac_addr`; `addr_str` is NULL or an array of chars. -/
structure MacAddr where
  addr : MacBytes
  addrStr : Option (Block UInt8)

/-- `_fischnet_mac_addr_zap`, `fischnet_mac_addr_init_empty`. -/
def macAddrInitEmpty : MacAddr :=
  ⟨⟨List.replicate macAddrByteCount 0, List.length_replicate⟩, none⟩

/-! ## Encoding -/

/-- `FISCHNET_MAC_ADDR_STR_SIZE`. -/
def macAddrStrSize : ℕ := 2 * macAddrByteCount + (macAddrByteCount - 1) + 1

/-- The array that `malloc` returns: what is in its cells is left from before, or
    not defined at all. -/
abbrev MacAddrMem := { cells : Block UInt8 // cells.length = macAddrStrSize }

/-- The char that `_fischnet_mac_addr_create_str__conv` writes; `none` if it
    returns -1. -/
def macAddrCreateStrConv (val : UInt8) : Option UInt8 :=
  if val ≤ 0x9 then some ('0'.toUInt8 + val)
  else if val ≤ 0xf then some ('A'.toUInt8 + 0xa + val)
  else none

/-- The loop of `_fischnet_mac_addr_create_str`, writing at `str_pos`: the string
    or NULL.  Without a result, it writes behind the array. -/
def macAddrCreateStrLoop : List UInt8 → ℕ → Block UInt8 → Option (Option (Block UInt8))
  | [], _, str => some (some str)
  | byte :: addr, strPos, str => do
    let sep := strPos ≠ 0
    let str ← if sep then str.store strPos '-'.toUInt8 else some str
    let strPos := if sep then strPos + 1 else strPos
    match macAddrCreateStrConv (byte / 16), macAddrCreateStrConv (byte % 16) with
    | some quot, some rem => do
      let str ← str.store strPos quot
      let str ← str.store (strPos + 1) rem
      macAddrCreateStrLoop addr (strPos + 2) str
    | _, _ => some none

/-- `_fischnet_mac_addr_create_str`. -/
def macAddrCreateStr (mem : Option MacAddrMem) (addr : MacBytes) : Option (Option (Block UInt8)) :=
  match mem with
  | none => some none
  | some mem => macAddrCreateStrLoop addr.1 0 mem.1

/-- `fischnet_mac_addr_get_str`. -/
def macAddrGetStr (mem : Option MacAddrMem) (macAddr : MacAddr) :
    Option (Option (Block UInt8) × MacAddr) :=
  match macAddr.addrStr with
  | some str => some (some str, macAddr)
  | none =>
    (macAddrCreateStr mem macAddr.addr).map fun str => (str, { macAddr with addrStr := str })

/-! ## Decoding -/

/-- `FISCHNET_MAC_ADDR_PARSE_RESULT_...`; `error` is -1. -/
inductive MacAddrParseResult
  | error
  | success
  | tooFewBlocks
  | tooManyBlocks
  | emptyBlock
  | invalidToken
  deriving DecidableEq

/-- The chars of a field separator. -/
def isFieldSep (chr : UInt8) : Bool :=
  chr = '-'.toUInt8 || chr = ':'.toUInt8 || chr = '_'.toUInt8

/-- The values of the digits. -/
def macAddrParseDigit (chr : UInt8) : Option UInt8 :=
  if '0'.toUInt8 ≤ chr ∧ chr ≤ '9'.toUInt8 then some (chr - '0'.toUInt8)
  else if 'a'.toUInt8 ≤ chr ∧ chr ≤ 'f'.toUInt8 then some (chr - 'a'.toUInt8 + 0xa)
  else if 'A'.toUInt8 ≤ chr ∧ chr ≤ 'F'.toUInt8 then some (chr - 'A'.toUInt8 + 0xA)
  else none

/-- `addr [byte_pos] = 16 * addr [byte_pos] + digit`, in 8 bits. -/
def MacBytes.accumulate (addr : MacBytes) (bytePos : ℕ) (digit : UInt8) : MacBytes :=
  ⟨addr.1.modify bytePos fun byte => 16 * byte + digit, by rw [List.length_modify]; exact addr.2⟩

/-- The loop of `_fischnet_mac_addr_parse_addr_str`. -/
def macAddrParseLoop : List UInt8 → ℕ → Bool → MacBytes → MacAddrParseResult × MacBytes
  | [], bytePos, blockIsEmpty, addr =>
    if bytePos < macAddrByteCount then
      if blockIsEmpty then (.emptyBlock, addr)
      else if bytePos = macAddrByteCount - 1 then (.success, addr)
      else (.tooFewBlocks, addr)
    else (.tooManyBlocks, addr)
  | chr :: str, bytePos, blockIsEmpty, addr =>
    if bytePos < macAddrByteCount then
      if isFieldSep chr then
        if blockIsEmpty then (.emptyBlock, addr) else macAddrParseLoop str (bytePos + 1) true addr
      else
        match macAddrParseDigit chr with
        | some digit => macAddrParseLoop str bytePos false (addr.accumulate bytePos digit)
        | none => (.invalidToken, addr)
    else (.tooManyBlocks, addr)

/-- `_fischnet_mac_addr_parse_addr_str`; a string is NULL or its chars. -/
def macAddrParseAddrStr (macAddr : MacAddr) (macAddrStr : Option (List UInt8)) :
    MacAddrParseResult × MacAddr :=
  match macAddrStr with
  | none | some [] => (.error, macAddr)
  | some str =>
    let r := macAddrParseLoop str 0 true macAddr.addr
    (r.1, { macAddr with addr := r.2 })

/-- `fischnet_mac_addr_init_str`. -/
def macAddrInitStr (macAddrStr : Option (List UInt8)) : MacAddrParseResult × MacAddr :=
  macAddrParseAddrStr macAddrInitEmpty macAddrStr

/-! ## What the codec should do -/

namespace MacAddr

/-- The text between field separators. -/
def blocks (str : List UInt8) : List (List UInt8) := str.splitOnP isFieldSep

/-- A hexadecimal digit. -/
def IsHexDigit (chr : UInt8) : Prop := isDigitIn 16 (Char.ofNat chr.toNat) = true

instance : DecidablePred IsHexDigit := fun _ => inferInstanceAs (Decidable (_ = true))

/-- The value of a hexadecimal number. -/
def hexValue (block : List UInt8) : ℕ :=
  block.foldl (fun n chr => 16 * n + (digitValue (Char.ofNat chr.toNat)).getD 0) 0

/-- Six non-empty blocks of hexadecimal digits. -/
structure HexBlocks (str : List UInt8) : Prop where
  count : (blocks str).length = macAddrByteCount
  nonempty : ∀ block ∈ blocks str, block ≠ []
  digits : ∀ block ∈ blocks str, ∀ chr ∈ block, IsHexDigit chr

/-- The text of a MAC address: six blocks of one or two hexadecimal digits. -/
structure IsMacText (str : List UInt8) : Prop extends HexBlocks str where
  short : ∀ block ∈ blocks str, block.length ≤ 2

/-- What is asked of the decoder. -/
structure Decodes (str : List UInt8) : Prop where
  accepts : (macAddrInitStr (some str)).1 = .success ↔ IsMacText str
  values : IsMacText str →
    (macAddrInitStr (some str)).2.addr.1.map UInt8.toNat = (blocks str).map hexValue

/-- What is asked of the encoder: the string is terminated within its array, and it
    is read back as the address. -/
def RoundTrips (addr : MacBytes) (mem : MacAddrMem) : Prop :=
  ∃ cells macAddr str, macAddrGetStr (some mem) ⟨addr, none⟩ = some (some cells, macAddr) ∧
    cstring cells = some str ∧ (macAddrInitStr (some str)).1 = .success ∧
    (macAddrInitStr (some str)).2.addr = addr

/-- No digit of the byte is above 9. -/
def IsDecimal (byte : UInt8) : Prop := byte / 16 ≤ 9 ∧ byte % 16 ≤ 9

instance : DecidablePred IsDecimal := fun _ => inferInstanceAs (Decidable (_ ∧ _))

/-- Six non-empty blocks of hexadecimal digits, but one of them has more than two. -/
def Overlong (str : List UInt8) : Prop := HexBlocks str ∧ ∃ block ∈ blocks str, 2 < block.length

/-! ## The encoder -/

/-- The char written for a digit. -/
def digitChar (val : UInt8) : UInt8 :=
  if val ≤ 9 then '0'.toUInt8 + val else 'A'.toUInt8 + 0xa + val

/-- The block written for a byte. -/
def pair (byte : UInt8) : List UInt8 := [digitChar (byte / 16), digitChar (byte % 16)]

/-- The blocks behind the first one, each with its separator. -/
def tailText (addr : List UInt8) : List UInt8 := addr.flatMap fun byte => '-'.toUInt8 :: pair byte

/-- The text written for the bytes of an address. -/
def text : List UInt8 → List UInt8
  | [] => []
  | byte :: addr => pair byte ++ tailText addr

theorem quot_lt (byte : UInt8) : byte / 16 < 16 := by
  have := byte.toNat_lt
  rw [UInt8.lt_iff_toNat_lt, UInt8.toNat_div]
  change byte.toNat / 16 < 16
  omega

theorem rem_lt (byte : UInt8) : byte % 16 < 16 := by
  rw [UInt8.lt_iff_toNat_lt, UInt8.toNat_mod]
  exact Nat.mod_lt _ (by simp)

theorem byte_eq (byte : UInt8) : 16 * (16 * 0 + byte / 16) + byte % 16 = byte := by
  have := byte.toNat_lt
  rw [← UInt8.toNat_inj]
  simp only [UInt8.toNat_add, UInt8.toNat_mul, UInt8.toNat_div, UInt8.toNat_mod]
  change (16 * ((16 * 0 % 2 ^ 8 + byte.toNat / 16) % 2 ^ 8) % 2 ^ 8 + byte.toNat % 16) % 2 ^ 8 = _
  omega

theorem createStrConv_eq {val : UInt8} (h : val < 16) :
    macAddrCreateStrConv val = some (digitChar val) := by
  have hle : val ≤ 0xf := by
    rw [UInt8.le_iff_toNat_le]
    exact Nat.le_of_lt_succ (UInt8.lt_iff_toNat_lt.1 h)
  rw [macAddrCreateStrConv, digitChar]
  split_ifs <;> rfl

/-- Each byte behind the first one fills three cells. -/
theorem createStrLoop_tail (addr : List UInt8) :
    ∀ {l : List UInt8} {rest : Block UInt8}, l ≠ [] → 3 * addr.length ≤ rest.length →
      macAddrCreateStrLoop addr l.length (l.map some ++ rest) =
        some (some ((l ++ tailText addr).map some ++ rest.drop (3 * addr.length))) := by
  induction addr with
  | nil =>
    intro l rest _ _
    simp [macAddrCreateStrLoop, tailText]
  | cons byte addr ih =>
    intro l rest hl hrest
    obtain _ | ⟨c₁, _ | ⟨c₂, _ | ⟨c₃, rest⟩⟩⟩ := rest
    iterate 3
      · simp only [List.length_cons, List.length_nil] at hrest
        omega
    have hpos : l.length ≠ 0 := fun h => hl (List.length_eq_zero_iff.1 h)
    rw [macAddrCreateStrLoop]
    simp only [hpos, ne_eq, not_false_eq_true, if_true, Block.store_append, Option.bind_eq_bind,
      Option.bind_some, createStrConv_eq (quot_lt byte), createStrConv_eq (rem_lt byte),
      List.length_append, List.length_singleton]
    have hlen : l.length + 1 + 2 =
        (l ++ ['-'.toUInt8] ++ [digitChar (byte / 16)] ++ [digitChar (byte % 16)]).length := by
      simp
    have hrest' : 3 * addr.length ≤ rest.length := by
      simp only [List.length_cons] at hrest
      omega
    rw [hlen, ih (by simp) hrest', List.length_cons, Nat.mul_succ]
    simp [tailText, pair]

/-- **The encoder** writes the text, and leaves the last cell as it is. -/
theorem macAddrCreateStr_eq (mem : MacAddrMem) (addr : MacBytes) :
    macAddrCreateStr (some mem) addr =
      some (some ((text addr.1).map some ++ mem.1.drop (macAddrStrSize - 1))) := by
  obtain ⟨mem, hmem⟩ := mem
  obtain ⟨_ | ⟨byte, addr⟩, haddr⟩ := addr
  · cases haddr
  obtain _ | ⟨c₁, _ | ⟨c₂, rest⟩⟩ := mem
  · cases hmem
  · cases hmem
  have haddr : addr.length = 5 := Nat.succ.inj haddr
  have hrest : rest.length = 16 := Nat.succ.inj (Nat.succ.inj hmem)
  have htail : macAddrCreateStrLoop addr (pair byte).length ((pair byte).map some ++ rest) = _ :=
    createStrLoop_tail addr nofun (by omega)
  have hfirst (c : Option UInt8) (cells : Block UInt8) (x : UInt8) :
      Block.store (c :: cells) 0 x = some (some x :: cells) := by
    exact Block.store_append [] c cells rfl
  have hsecond (c : Option UInt8) (cells : Block UInt8) (x y : UInt8) :
      Block.store (some x :: c :: cells) 1 y = some (some x :: some y :: cells) := by
    exact Block.store_append [x] c cells rfl
  rw [haddr] at htail
  dsimp only [macAddrCreateStr, macAddrCreateStrLoop]
  rw [createStrConv_eq (quot_lt byte), createStrConv_eq (rem_lt byte)]
  simp only [ne_eq, not_true_eq_false, if_false, hfirst, hsecond, Option.bind_eq_bind,
    Option.bind_some]
  exact htail

/-- The chars of the text are not NUL. -/
theorem zero_not_mem_text (addr : List UInt8) : 0 ∉ text addr := by
  have hdigit : ∀ n < 2 ^ 8,
      digitChar (UInt8.ofNat n / 16) ≠ 0 ∧ digitChar (UInt8.ofNat n % 16) ≠ 0 := by decide +kernel
  have hpair (byte : UInt8) : 0 ∉ pair byte := by
    have h := hdigit byte.toNat byte.toNat_lt
    rw [UInt8.ofNat_toNat] at h
    simp [pair, h.1.symm, h.2.symm]
  cases addr with
  | nil => exact List.not_mem_nil
  | cons byte addr =>
    rw [text, tailText, List.mem_append, List.mem_flatMap]
    rintro (h | ⟨byte', -, h⟩)
    · exact hpair byte h
    · rcases List.mem_cons.1 h with h | h
      · cases h
      · exact hpair byte' h

/-- What is read from a text with one more cell. -/
theorem cstring_text (addr : List UInt8) (cells : Block UInt8) (hcells : cells.length = 1) :
    cstring ((text addr).map some ++ cells) =
      if cells.load 0 = some 0 then some (text addr) else none := by
  obtain ⟨cell, rfl⟩ := List.length_eq_one_iff.1 hcells
  rw [cstring_append (zero_not_mem_text addr)]
  cases cell with
  | none => rfl
  | some chr =>
    by_cases hchr : chr = 0
    · simp [cstring, Block.load, hchr]
    · simp [cstring, Block.load, hchr]

/-! ## The decoder -/

/-- The three cases for the digits agree with the digits of a number. -/
theorem map_toNat_parseDigit (chr : UInt8) :
    (macAddrParseDigit chr).map UInt8.toNat =
      (digitValue (Char.ofNat chr.toNat)).filter (· < 16) := by
  have hall : ∀ n < 2 ^ 8, (macAddrParseDigit (UInt8.ofNat n)).map UInt8.toNat =
      (digitValue (Char.ofNat (UInt8.ofNat n).toNat)).filter (· < 16) := by decide +kernel
  have h := hall chr.toNat chr.toNat_lt
  rwa [UInt8.ofNat_toNat] at h

theorem parseDigit_isSome_iff (chr : UInt8) : (macAddrParseDigit chr).isSome ↔ IsHexDigit chr := by
  rw [← Option.isSome_map (f := UInt8.toNat), map_toNat_parseDigit, IsHexDigit, isDigitIn]
  cases digitValue (Char.ofNat chr.toNat) with
  | none => simp
  | some n => simp [Option.filter]

/-- A digit and its value. -/
theorem toNat_of_parseDigit {chr digit : UInt8} (h : macAddrParseDigit chr = some digit) :
    (digitValue (Char.ofNat chr.toNat)).getD 0 = digit.toNat ∧ digit.toNat < 16 := by
  have hmap := map_toNat_parseDigit chr
  rw [h, Option.map_some, eq_comm, Option.filter_eq_some_iff] at hmap
  rw [hmap.1]
  exact ⟨rfl, of_decide_eq_true hmap.2⟩

/-- The byte that the digits of a block leave behind in `byte`. -/
def foldBlock (byte : UInt8) (block : List UInt8) : UInt8 :=
  block.foldl (fun byte chr => 16 * byte + (macAddrParseDigit chr).getD 0) byte

theorem parseDigit_of_isHexDigit {chr : UInt8} (h : IsHexDigit chr) :
    ∃ digit, macAddrParseDigit chr = some digit :=
  Option.isSome_iff_exists.1 ((parseDigit_isSome_iff chr).2 h)

/-- **The 8-bit cell**: a byte is the value of its block modulo 256. -/
theorem foldBlock_toNat {block : List UInt8} (h : ∀ chr ∈ block, IsHexDigit chr) :
    (foldBlock 0 block).toNat = hexValue block % 256 := by
  have hfold : ∀ {block : List UInt8} {byte : UInt8} {n : ℕ},
      (∀ chr ∈ block, IsHexDigit chr) → byte.toNat = n % 256 →
        (foldBlock byte block).toNat = block.foldl
          (fun n chr => 16 * n + (digitValue (Char.ofNat chr.toNat)).getD 0) n % 256 := by
    intro block
    induction block with
    | nil => exact fun _ hbyte => hbyte
    | cons chr block ih =>
      intro byte n hblock hbyte
      obtain ⟨digit, hdigit⟩ := parseDigit_of_isHexDigit (hblock chr List.mem_cons_self)
      refine ih (fun c hc => hblock c (List.mem_cons_of_mem _ hc)) ?_
      dsimp only
      rw [hdigit, Option.getD_some, (toNat_of_parseDigit hdigit).1, UInt8.toNat_add,
        UInt8.toNat_mul, hbyte]
      change (16 * (n % 256) % 256 + digit.toNat) % 256 = (16 * n + digit.toNat) % 256
      omega
  exact hfold h rfl

theorem hexValue_lt {block : List UInt8} (h : ∀ chr ∈ block, IsHexDigit chr) :
    hexValue block < 16 ^ block.length := by
  have hfold : ∀ {block : List UInt8} {n k : ℕ}, (∀ chr ∈ block, IsHexDigit chr) → n < 16 ^ k →
      block.foldl (fun n chr => 16 * n + (digitValue (Char.ofNat chr.toNat)).getD 0) n <
        16 ^ (k + block.length) := by
    intro block
    induction block with
    | nil => exact fun _ hn => hn
    | cons chr block ih =>
      intro n k hblock hn
      obtain ⟨digit, hdigit⟩ := parseDigit_of_isHexDigit (hblock chr List.mem_cons_self)
      obtain ⟨hvalue, hlt⟩ := toNat_of_parseDigit hdigit
      rw [List.length_cons, Nat.add_comm block.length, ← Nat.add_assoc]
      refine ih (fun c hc => hblock c (List.mem_cons_of_mem _ hc)) ?_
      dsimp only
      rw [hvalue, pow_succ]
      omega
  have hlt := hfold (k := 0) h Nat.one_pos
  rwa [Nat.zero_add] at hlt

/-- The rest of a string is accepted in block `bytePos`, where `first` is the rest
    of this block and `later` are the blocks behind it. -/
structure Accepted (bytePos : ℕ) (blockIsEmpty : Bool) (first : List UInt8)
    (later : List (List UInt8)) : Prop where
  count : bytePos + 1 + later.length = macAddrByteCount
  nonempty : blockIsEmpty = true → first ≠ []
  laterNonempty : ∀ block ∈ later, block ≠ []
  digits : ∀ block ∈ first :: later, ∀ chr ∈ block, IsHexDigit chr

theorem blocks_sep {chr : UInt8} (h : isFieldSep chr = true) (str : List UInt8) :
    blocks (chr :: str) = [] :: blocks str := by
  rw [blocks, List.splitOnP_cons_eq_if_modifyHead, if_pos h, blocks]

theorem blocks_char {chr : UInt8} (h : isFieldSep chr = false) {str first : List UInt8}
    {later : List (List UInt8)} (hstr : blocks str = first :: later) :
    blocks (chr :: str) = (chr :: first) :: later := by
  rw [blocks, List.splitOnP_cons_eq_if_modifyHead, if_neg (by rw [h]; decide), ← blocks, hstr]
  rfl

theorem exists_blocks (str : List UInt8) : ∃ first later, blocks str = first :: later :=
  List.exists_cons_of_ne_nil (List.splitOnP_ne_nil _ _)

theorem accepted_sep_iff {bytePos : ℕ} {first : List UInt8} {later : List (List UInt8)} :
    Accepted bytePos false [] (first :: later) ↔ Accepted (bytePos + 1) true first later := by
  constructor
  · rintro ⟨hcount, -, hlater, hdigits⟩
    rw [List.length_cons] at hcount
    exact ⟨by omega, fun _ => hlater _ List.mem_cons_self,
      fun b hb => hlater b (List.mem_cons_of_mem _ hb),
      fun b hb => hdigits b (List.mem_cons_of_mem _ hb)⟩
  · rintro ⟨hcount, hfirst, hlater, hdigits⟩
    refine ⟨by rw [List.length_cons]; omega, nofun, ?_, ?_⟩
    · rintro b (_ | ⟨_, hb⟩)
      · exact hfirst rfl
      · exact hlater b hb
    · rintro b (_ | ⟨_, hb⟩)
      · nofun
      · exact hdigits b hb

theorem accepted_digit_iff {bytePos : ℕ} {blockIsEmpty : Bool} {chr : UInt8} {first : List UInt8}
    {later : List (List UInt8)} (hchr : IsHexDigit chr) :
    Accepted bytePos blockIsEmpty (chr :: first) later ↔ Accepted bytePos false first later := by
  constructor
  · rintro ⟨hcount, -, hlater, hdigits⟩
    refine ⟨hcount, nofun, hlater, ?_⟩
    rintro b (_ | ⟨_, hb⟩) c hc
    · exact hdigits _ List.mem_cons_self c (List.mem_cons_of_mem _ hc)
    · exact hdigits b (List.mem_cons_of_mem _ hb) c hc
  · rintro ⟨hcount, -, hlater, hdigits⟩
    refine ⟨hcount, fun _ => List.cons_ne_nil _ _, hlater, ?_⟩
    rintro b (_ | ⟨_, hb⟩) c hc
    · rcases List.mem_cons.1 hc with rfl | hc
      · exact hchr
      · exact hdigits _ List.mem_cons_self c hc
    · exact hdigits b (List.mem_cons_of_mem _ hb) c hc

theorem parseLoop_tooManyBlocks {str : List UInt8} {bytePos : ℕ} (h : ¬bytePos < macAddrByteCount)
    (blockIsEmpty : Bool) (addr : MacBytes) :
    macAddrParseLoop str bytePos blockIsEmpty addr = (.tooManyBlocks, addr) := by
  cases str with
  | nil => exact if_neg h
  | cons chr str => exact if_neg h

/-- The bytes before, in and behind the current block. -/
def Splits (addr : MacBytes) (done : List UInt8) (byte : UInt8) : Prop :=
  addr.1 = done ++ byte :: List.replicate (macAddrByteCount - 1 - done.length) 0

theorem Splits.accumulate {addr : MacBytes} {done : List UInt8} {byte : UInt8}
    (h : Splits addr done byte) (digit : UInt8) :
    Splits (addr.accumulate done.length digit) done (16 * byte + digit) := by
  change addr.1.modify done.length _ = _
  rw [List.modify_eq_take_drop, h, List.take_left, List.drop_left]
  rfl

theorem Splits.next {addr : MacBytes} {done : List UInt8} {byte : UInt8}
    (h : Splits addr done byte) (hpos : done.length + 1 < macAddrByteCount) :
    Splits addr (done ++ [byte]) 0 := by
  have hrest : macAddrByteCount - 1 - done.length =
      macAddrByteCount - 1 - (done ++ [byte]).length + 1 := by
    rw [List.length_append, List.length_singleton]
    omega
  rw [Splits, h, hrest, List.replicate_succ, List.append_assoc]
  rfl

/-- **The decoder** from the middle of a block on. -/
theorem parseLoop_spec (str : List UInt8) :
    ∀ (blockIsEmpty : Bool) {done : List UInt8} {byte : UInt8} {addr : MacBytes},
      done.length < macAddrByteCount → Splits addr done byte →
        ∃ first later, blocks str = first :: later ∧
          ((macAddrParseLoop str done.length blockIsEmpty addr).1 = .success ↔
            Accepted done.length blockIsEmpty first later) ∧
          (Accepted done.length blockIsEmpty first later →
            (macAddrParseLoop str done.length blockIsEmpty addr).2.1 =
              done ++ foldBlock byte first :: later.map (foldBlock 0)) := by
  induction str with
  | nil =>
    intro blockIsEmpty done byte addr hpos haddr
    refine ⟨[], [], rfl, ?_⟩
    rw [macAddrParseLoop, if_pos hpos]
    cases blockIsEmpty with
    | true =>
      have hno : ¬Accepted done.length true [] [] := fun h => h.nonempty rfl rfl
      exact ⟨iff_of_false nofun hno, fun h => absurd h hno⟩
    | false =>
      rw [if_neg Bool.false_ne_true]
      by_cases hlast : done.length = macAddrByteCount - 1
      · rw [if_pos hlast]
        refine ⟨iff_of_true rfl ⟨by rw [hlast]; rfl, nofun, nofun, ?_⟩, fun _ => ?_⟩
        · rintro b (_ | ⟨_, ⟨⟩⟩)
          nofun
        · rw [haddr, hlast]
          rfl
      · rw [if_neg hlast]
        have hno : ¬Accepted done.length false [] [] := fun h =>
          hlast (by have := h.count; rw [List.length_nil] at this; omega)
        exact ⟨iff_of_false nofun hno, fun h => absurd h hno⟩
  | cons chr str ih =>
    intro blockIsEmpty done byte addr hpos haddr
    rw [macAddrParseLoop, if_pos hpos]
    cases hsep : isFieldSep chr with
    | true =>
      obtain ⟨first, later, hstr⟩ := exists_blocks str
      refine ⟨[], first :: later, by rw [blocks_sep hsep, hstr], ?_⟩
      rw [if_pos rfl]
      cases blockIsEmpty with
      | true =>
        have hno : ¬Accepted done.length true [] (first :: later) := fun h => h.nonempty rfl rfl
        exact ⟨iff_of_false nofun hno, fun h => absurd h hno⟩
      | false =>
        rw [if_neg Bool.false_ne_true, accepted_sep_iff]
        by_cases hnext : done.length + 1 < macAddrByteCount
        · have hlen : (done ++ [byte]).length = done.length + 1 := by simp
          obtain ⟨first', later', hstr', hiff, hvalue⟩ :=
            ih true (by rwa [hlen]) (haddr.next hnext)
          rw [hstr, List.cons.injEq] at hstr'
          obtain ⟨rfl, rfl⟩ := hstr'
          rw [hlen] at hiff hvalue
          refine ⟨hiff, fun h => ?_⟩
          rw [hvalue h, List.append_assoc]
          rfl
        · rw [parseLoop_tooManyBlocks hnext]
          have hno : ¬Accepted (done.length + 1) true first later := fun h =>
            hnext (by have := h.count; omega)
          exact ⟨iff_of_false nofun hno, fun h => absurd h hno⟩
    | false =>
      rw [if_neg Bool.false_ne_true]
      cases hdigit : macAddrParseDigit chr with
      | none =>
        obtain ⟨first, later, hstr⟩ := exists_blocks str
        refine ⟨chr :: first, later, blocks_char hsep hstr, ?_⟩
        have hchr : ¬IsHexDigit chr := by
          rw [← parseDigit_isSome_iff, hdigit]
          nofun
        have hno : ¬Accepted done.length blockIsEmpty (chr :: first) later := fun h =>
          hchr (h.digits _ List.mem_cons_self chr List.mem_cons_self)
        exact ⟨iff_of_false nofun hno, fun h => absurd h hno⟩
      | some digit =>
        have hchr : IsHexDigit chr := by
          rw [← parseDigit_isSome_iff, hdigit]
          rfl
        obtain ⟨first, later, hstr, hiff, hvalue⟩ :=
          ih false hpos (haddr.accumulate digit)
        refine ⟨chr :: first, later, blocks_char hsep hstr, ?_⟩
        rw [accepted_digit_iff hchr]
        refine ⟨hiff, fun h => ?_⟩
        rw [hvalue h, foldBlock, foldBlock, List.foldl_cons, hdigit]
        rfl

theorem accepted_iff_hexBlocks {str first : List UInt8} {later : List (List UInt8)}
    (hstr : blocks str = first :: later) : Accepted 0 true first later ↔ HexBlocks str := by
  constructor
  · rintro ⟨hcount, hfirst, hlater, hdigits⟩
    refine ⟨?_, ?_, ?_⟩
    · rw [hstr, List.length_cons]
      omega
    · rw [hstr]
      rintro b (_ | ⟨_, hb⟩)
      · exact hfirst rfl
      · exact hlater b hb
    · rw [hstr]
      exact hdigits
  · rintro ⟨hcount, hnonempty, hdigits⟩
    rw [hstr] at hcount hnonempty hdigits
    rw [List.length_cons] at hcount
    exact ⟨by omega, fun _ => hnonempty _ List.mem_cons_self,
      fun b hb => hnonempty b (List.mem_cons_of_mem _ hb), hdigits⟩

/-- **The decoder** accepts six non-empty blocks of digits of any length. -/
theorem macAddrInitStr_eq_success_iff (str : List UInt8) :
    ((macAddrInitStr (some str)).1 = .success ↔ HexBlocks str) ∧
      (HexBlocks str →
        (macAddrInitStr (some str)).2.addr.1 = (blocks str).map (foldBlock 0)) := by
  cases str with
  | nil =>
    have hno : ¬HexBlocks [] := fun h => by
      have := h.count
      cases this
    exact ⟨iff_of_false nofun hno, fun h => absurd h hno⟩
  | cons chr str =>
    have hsplits : Splits macAddrInitEmpty.addr [] 0 := rfl
    obtain ⟨first, later, hstr, hiff, hvalue⟩ :=
      parseLoop_spec (chr :: str) true (by decide) hsplits
    rw [List.length_nil, accepted_iff_hexBlocks hstr] at hiff hvalue
    refine ⟨hiff, fun h => ?_⟩
    rw [hstr]
    exact hvalue h

/-! ## The codec -/

theorem isMacText_iff (str : List UInt8) : IsMacText str ↔ HexBlocks str ∧ ¬Overlong str := by
  constructor
  · intro h
    refine ⟨h.toHexBlocks, ?_⟩
    rintro ⟨-, block, hblock, hlong⟩
    have := h.short block hblock
    omega
  · rintro ⟨h, hshort⟩
    refine ⟨h, fun block hblock => ?_⟩
    by_contra hlong
    exact hshort ⟨h, block, hblock, by omega⟩

theorem decodes_iff (str : List UInt8) : Decodes str ↔ ¬Overlong str := by
  obtain ⟨haccepts, hvalues⟩ := macAddrInitStr_eq_success_iff str
  constructor
  · intro h hlong
    have htext := h.accepts.1 (haccepts.2 hlong.1)
    exact ((isMacText_iff str).1 htext).2 hlong
  · intro hshort
    refine ⟨?_, fun htext => ?_⟩
    · rw [haccepts, isMacText_iff]
      exact (and_iff_left hshort).symm
    · rw [hvalues htext.toHexBlocks, List.map_map]
      refine List.map_congr_left fun block hblock => ?_
      have hdigits := htext.digits block hblock
      have hlt : hexValue block < 256 :=
        (hexValue_lt hdigits).trans_le (Nat.pow_le_pow_right (by simp) (htext.short block hblock))
      rw [Function.comp_apply, foldBlock_toNat hdigits, Nat.mod_eq_of_lt hlt]

/-- The digits up to 9 are written as they are read; the others are written as
    letters that are no digits. -/
theorem digitChar_spec {val : UInt8} (h : val < 16) :
    isFieldSep (digitChar val) = false ∧ (IsHexDigit (digitChar val) ↔ val ≤ 9) ∧
      (val ≤ 9 → macAddrParseDigit (digitChar val) = some val) := by
  have hall : ∀ n < 16, isFieldSep (digitChar (UInt8.ofNat n)) = false ∧
      (IsHexDigit (digitChar (UInt8.ofNat n)) ↔ UInt8.ofNat n ≤ 9) ∧
      (UInt8.ofNat n ≤ 9 →
        macAddrParseDigit (digitChar (UInt8.ofNat n)) = some (UInt8.ofNat n)) := by
    decide +kernel
  have hn := hall val.toNat (UInt8.lt_iff_toNat_lt.1 h)
  rwa [UInt8.ofNat_toNat] at hn

theorem forall_mem_pair {P : UInt8 → Prop} (byte : UInt8) :
    (∀ chr ∈ pair byte, P chr) ↔ P (digitChar (byte / 16)) ∧ P (digitChar (byte % 16)) := by
  simp [pair]

/-- The two chars written for a byte. -/
theorem pair_spec (byte : UInt8) :
    (∀ chr ∈ pair byte, isFieldSep chr = false) ∧
      ((∀ chr ∈ pair byte, IsHexDigit chr) ↔ IsDecimal byte) ∧
      (IsDecimal byte → foldBlock 0 (pair byte) = byte) := by
  obtain ⟨hsep, hhex, hvalue⟩ := digitChar_spec (quot_lt byte)
  obtain ⟨hsep', hhex', hvalue'⟩ := digitChar_spec (rem_lt byte)
  rw [forall_mem_pair, forall_mem_pair]
  refine ⟨⟨hsep, hsep'⟩, and_congr hhex hhex', fun h => ?_⟩
  rw [foldBlock, pair, List.foldl_cons, List.foldl_cons, List.foldl_nil, hvalue h.1, hvalue' h.2,
    Option.getD_some, Option.getD_some]
  exact byte_eq byte

theorem blocks_text {addr : List UInt8} (h : addr ≠ []) : blocks (text addr) = addr.map pair := by
  have htail : ∀ (addr : List UInt8) (byte : UInt8),
      blocks (pair byte ++ tailText addr) = pair byte :: addr.map pair := by
    intro addr
    induction addr with
    | nil =>
      intro byte
      rw [tailText, List.flatMap_nil, List.append_nil]
      exact List.splitOnP_eq_singleton (pair_spec byte).1
    | cons byte' addr ih =>
      intro byte
      have hsep : isFieldSep '-'.toUInt8 = true := by decide
      rw [tailText, List.flatMap_cons, ← tailText, List.cons_append, blocks,
        List.splitOnP_append_cons_of_forall_mem (pair_spec byte).1 _ hsep, ← blocks, ih byte']
      rfl
  obtain ⟨byte, addr, rfl⟩ := List.exists_cons_of_ne_nil h
  exact htail addr byte

theorem ne_nil (addr : MacBytes) : addr.1 ≠ [] :=
  List.ne_nil_of_length_pos (by rw [addr.2]; decide)

theorem hexBlocks_text (addr : MacBytes) :
    HexBlocks (text addr.1) ↔ ∀ byte ∈ addr.1, IsDecimal byte := by
  have hblocks : blocks (text addr.1) = addr.1.map pair := blocks_text (ne_nil addr)
  constructor
  · rintro ⟨-, -, hdigits⟩ byte hbyte
    refine (pair_spec byte).2.1.1 (hdigits _ ?_)
    rw [hblocks]
    exact List.mem_map_of_mem hbyte
  · intro h
    refine ⟨by rw [hblocks, List.length_map, addr.2], ?_, ?_⟩
    · rw [hblocks]
      rintro _ hblock
      obtain ⟨byte, -, rfl⟩ := List.mem_map.1 hblock
      exact List.cons_ne_nil _ _
    · rw [hblocks]
      rintro _ hblock
      obtain ⟨byte, hbyte, rfl⟩ := List.mem_map.1 hblock
      exact (pair_spec byte).2.1.2 (h byte hbyte)

theorem roundTrips_iff (addr : MacBytes) (mem : MacAddrMem) :
    RoundTrips addr mem ↔
      mem.1.load (macAddrStrSize - 1) = some 0 ∧ ∀ byte ∈ addr.1, IsDecimal byte := by
  have hget : ∀ cells macAddr,
      macAddrGetStr (some mem) ⟨addr, none⟩ = some (some cells, macAddr) →
        cells = (text addr.1).map some ++ mem.1.drop (macAddrStrSize - 1) := by
    intro cells macAddr hget
    rw [macAddrGetStr, macAddrCreateStr_eq] at hget
    cases hget
    rfl
  have hlast : (mem.1.drop (macAddrStrSize - 1)).length = 1 := by
    rw [List.length_drop, mem.2]
    rfl
  have hload : Block.load (mem.1.drop (macAddrStrSize - 1)) 0 =
      mem.1.load (macAddrStrSize - 1) := by
    rw [Block.load, Block.load, List.getElem?_drop, Nat.add_zero]
  have hstring := cstring_text addr.1 _ hlast
  rw [hload] at hstring
  obtain ⟨haccepts, hvalues⟩ := macAddrInitStr_eq_success_iff (text addr.1)
  constructor
  · rintro ⟨cells, macAddr, str, hcells, hstr, hsuccess, -⟩
    rw [hget cells macAddr hcells, hstring] at hstr
    split_ifs at hstr with hzero
    cases hstr
    exact ⟨hzero, (hexBlocks_text addr).1 (haccepts.1 hsuccess)⟩
  · rintro ⟨hzero, hdecimal⟩
    have hblocks := (hexBlocks_text addr).2 hdecimal
    refine ⟨_, _, text addr.1, by rw [macAddrGetStr, macAddrCreateStr_eq]; rfl, ?_,
      haccepts.2 hblocks, Subtype.ext ?_⟩
    · rw [hstring, if_pos hzero]
    · rw [hvalues hblocks, blocks_text (ne_nil addr), List.map_map]
      refine (List.map_congr_left fun byte hbyte => ?_).trans (List.map_id _)
      exact (pair_spec byte).2.2 (hdecimal byte hbyte)

end MacAddr

/-- **The MAC address codec.**  An address round trips if and only if the last cell
    of the array from `malloc` happens to hold NUL and no digit of the address is
    above 9; a string is decoded as it should be if and only if it is not six
    blocks of hexadecimal digits with one of more than two digits. -/
theorem macAddr_codec_iff (addr : MacBytes) (mem : MacAddrMem) (str : List UInt8) :
    (MacAddr.RoundTrips addr mem ↔
      mem.1.load (macAddrStrSize - 1) = some 0 ∧ ∀ byte ∈ addr.1, MacAddr.IsDecimal byte) ∧
    (MacAddr.Decodes str ↔ ¬MacAddr.Overlong str) :=
  ⟨MacAddr.roundTrips_iff addr mem, MacAddr.decodes_iff str⟩

/-- An address, an array and a string for which the codec fails. -/
theorem macAddr_codec_fails :
    ¬MacAddr.RoundTrips ⟨[0xde, 0xad, 0xbe, 0xef, 0, 1], by decide⟩
        ⟨List.replicate 18 (some 0), by decide⟩ ∧
      ¬MacAddr.RoundTrips ⟨[0, 0, 0, 0, 0, 1], by decide⟩ ⟨Block.fresh 18, by decide⟩ ∧
      ¬MacAddr.Decodes ("100:0:0:0:0:1".toList.map Char.toUInt8) := by
  refine ⟨?_, ?_, ?_⟩
  · -- the digit 13 is written as 'X'
    rw [MacAddr.roundTrips_iff]
    rintro ⟨-, hdecimal⟩
    exact absurd (hdecimal 0xad (by simp)) (by decide)
  · -- the terminator is not written
    rw [MacAddr.roundTrips_iff]
    rintro ⟨hzero, -⟩
    exact absurd hzero (by decide)
  · -- the first byte is 0
    intro h
    have htext := h.accepts.1 (by decide +kernel)
    exact absurd htext.short (by decide +kernel)

end Fischstaebchen
