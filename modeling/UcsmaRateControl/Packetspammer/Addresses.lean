import Mathlib.Data.List.Induction
import UcsmaRateControl.Packetspammer.Options

/-!
# The addresses in the header

The loops of `main` read the digits of an address as if every letter were in lower case. A letter in
upper case is then read as a number that is 32 too small. In the first digit of a byte that number
is multiplied by 16, and what is missing, 512, is lost when the byte is stored; in the second one it
is not.
-/

namespace UcsmaRateControl

/-! ## What an argument denotes -/

/-- The value of a hexadecimal digit, with a letter in either case. -/
def hexVal (c : UInt8) : Option UInt8 :=
  if 48 ≤ c ∧ c ≤ 57 then some (c - 48)
  else if 97 ≤ c ∧ c ≤ 102 then some (c - 87)
  else if 65 ≤ c ∧ c ≤ 70 then some (c - 55)
  else none

/-- A digit that is a letter in upper case. -/
def isUpper (c : UInt8) : Bool := 65 ≤ c && c ≤ 70

/-- The argument is a textual address: six groups of two digits, with one character between them. -/
structure Arg.IsMac (a : Arg) : Prop where
  length : a.text.length = 17
  first : ∀ i < 6, (hexVal (a.byte (i * 3))).isSome = true
  second : ∀ i < 6, (hexVal (a.byte (i * 3 + 1))).isSome = true

/-- The bytes that it denotes. -/
def Arg.denoted (a : Arg) (i : ℕ) : UInt8 :=
  16 * (hexVal (a.byte (i * 3))).getD 0 + (hexVal (a.byte (i * 3 + 1))).getD 0

section Digits

variable {c v : UInt8}

theorem firstDigit_mul (h : hexVal c = some v) : firstDigit c * 16 = 16 * v := by
  simp only [hexVal] at h
  rw [firstDigit]
  split_ifs at h <;> grind

theorem secondDigit_eq_iff (h : hexVal c = some v) (tmp : UInt8) :
    secondDigit tmp c = tmp * 16 + v ↔ isUpper c = false := by
  simp only [hexVal] at h
  rw [secondDigit, isUpper]
  split_ifs at h <;> grind

end Digits

/-- The byte that is read is the byte that is denoted, unless its second digit is a letter in upper
case. -/
theorem Arg.IsMac.macByte_eq_iff {a : Arg} (h : a.IsMac) {i : ℕ} (hi : i < 6) :
    a.macByte i = a.denoted i ↔ isUpper (a.byte (i * 3 + 1)) = false := by
  obtain ⟨v, hv⟩ := Option.isSome_iff_exists.mp (h.first i hi)
  obtain ⟨w, hw⟩ := Option.isSome_iff_exists.mp (h.second i hi)
  rw [Arg.macByte, Arg.denoted, hv, hw, ← secondDigit_eq_iff hw, firstDigit_mul hv]
  rfl

/-! ## Formatting -/

/-- The digit for a number below 16. -/
def hexDigit (upper : Bool) (v : UInt8) : UInt8 :=
  if v < 10 then v + 48 else if upper then v + 55 else v + 87

/-- The usual text of an address. -/
def macFormat (upper : Bool) (sep : UInt8) (mac : ℕ → UInt8) : Arg where
  text := List.ofFn fun k : Fin 17 ↦
    if (k : ℕ) % 3 = 0 then hexDigit upper (mac (k / 3) / 16)
    else if (k : ℕ) % 3 = 1 then hexDigit upper (mac (k / 3) % 16)
    else sep
  behind _ := 0

section Format

variable (upper : Bool) (sep : UInt8) (mac : ℕ → UInt8) {i : ℕ}

/-- The sixteen digits, in either case. -/
theorem hexDigit_spec : ∀ upper : Bool, ∀ n < 16,
    hexVal (hexDigit upper (UInt8.ofNat n)) = some (UInt8.ofNat n) ∧
      (isUpper (hexDigit upper (UInt8.ofNat n)) = false ↔
        (upper = true → UInt8.ofNat n < 10)) := by
  decide

theorem hexVal_hexDigit {v : UInt8} (hv : v < 16) : hexVal (hexDigit upper v) = some v := by
  rw [← UInt8.ofNat_toNat (x := v)]
  exact (hexDigit_spec upper v.toNat (UInt8.lt_iff_toNat_lt.mp hv)).1

theorem isUpper_hexDigit {v : UInt8} (hv : v < 16) :
    isUpper (hexDigit upper v) = false ↔ (upper = true → v < 10) := by
  rw [← UInt8.ofNat_toNat (x := v)]
  exact (hexDigit_spec upper v.toNat (UInt8.lt_iff_toNat_lt.mp hv)).2

theorem byte_macFormat {k : ℕ} (hk : k < 17) : (macFormat upper sep mac).byte k =
    if k % 3 = 0 then hexDigit upper (mac (k / 3) / 16)
    else if k % 3 = 1 then hexDigit upper (mac (k / 3) % 16)
    else sep := by
  have hlength : k < (macFormat upper sep mac).text.length := by
    rw [macFormat, List.length_ofFn]
    exact hk
  rw [Arg.byte, List.getElem?_append_left hlength, macFormat, List.getElem?_ofFn, dif_pos hk]
  rfl

theorem hexVal_first (hi : i < 6) :
    hexVal ((macFormat upper sep mac).byte (i * 3)) = some (mac i / 16) := by
  have hmod : i * 3 % 3 = 0 := Nat.mul_mod_left i 3
  have hdiv : i * 3 / 3 = i := Nat.mul_div_left i (by decide)
  rw [byte_macFormat upper sep mac (by omega), if_pos hmod, hdiv]
  exact hexVal_hexDigit upper (by grind)

theorem byte_second (hi : i < 6) :
    (macFormat upper sep mac).byte (i * 3 + 1) = hexDigit upper (mac i % 16) := by
  have hmod : (i * 3 + 1) % 3 = 1 := by omega
  have hdiv : (i * 3 + 1) / 3 = i := by omega
  rw [byte_macFormat upper sep mac (by omega), if_neg (by omega), if_pos hmod, hdiv]

theorem hexVal_second (hi : i < 6) :
    hexVal ((macFormat upper sep mac).byte (i * 3 + 1)) = some (mac i % 16) := by
  rw [byte_second upper sep mac hi]
  exact hexVal_hexDigit upper (by grind)

/-- A formatted address is textual. -/
theorem isMac_macFormat : (macFormat upper sep mac).IsMac where
  length := List.length_ofFn
  first i hi := by rw [hexVal_first upper sep mac hi]; rfl
  second i hi := by rw [hexVal_second upper sep mac hi]; rfl

/-- It denotes what it was made of. -/
theorem denoted_macFormat (hi : i < 6) : (macFormat upper sep mac).denoted i = mac i := by
  rw [Arg.denoted, hexVal_first upper sep mac hi, hexVal_second upper sep mac hi]
  grind

/-- The loops undo the formatting, unless it has a letter in upper case at the end of a byte. -/
theorem macByte_macFormat_iff (hi : i < 6) :
    (macFormat upper sep mac).macByte i = mac i ↔ (upper = true → mac i % 16 < 10) := by
  rw [← isUpper_hexDigit upper (show mac i % 16 < 16 by grind), ← byte_second upper sep mac hi,
    ← (isMac_macFormat upper sep mac).macByte_eq_iff hi, denoted_macFormat upper sep mac hi]

end Format

/-! ## What the options leave in the header -/

/-- The argument of an option for the source. -/
def Opt.src? : Opt → Option Arg
  | .s optarg => some optarg
  | _ => none

/-- The argument of an option for the destination. -/
def Opt.dst? : Opt → Option Arg
  | .t optarg => some optarg
  | _ => none

/-- The last source that is given. -/
def lastSrc (opts : List Opt) : Option Arg := (opts.filterMap Opt.src?).getLast?

/-- The last destination that is given. -/
def lastDst (opts : List Opt) : Option Arg := (opts.filterMap Opt.dst?).getLast?

/-- The header with a destination at 4 and a source at 10 and at 16, as `val` reads them. Where none
is given, and everywhere else, it is as it was. -/
def headerWith (val : Arg → ℕ → UInt8) (dst src : Option Arg) : Fin 24 → UInt8 := fun k ↦
  if 4 ≤ (k : ℕ) ∧ (k : ℕ) < 10 then dst.elim (u8aIeeeHeader k) fun a ↦ val a (k - 4)
  else if 10 ≤ (k : ℕ) ∧ (k : ℕ) < 16 then src.elim (u8aIeeeHeader k) fun a ↦ val a (k - 10)
  else if 16 ≤ (k : ℕ) ∧ (k : ℕ) < 22 then src.elim (u8aIeeeHeader k) fun a ↦ val a (k - 16)
  else u8aIeeeHeader k

section Copies

variable {n : ℕ} (init : Fin n → UInt8) (off : ℕ) (a : Arg) (k : Fin n)

/-- A copied address takes six bytes. -/
theorem memcpy_mac : memcpy init off a.mac k =
    if off ≤ k ∧ (k : ℕ) < off + 6 then a.macByte (k - off) else init k := by
  rw [memcpy, Arg.mac, List.getElem?_map]
  by_cases hle : off ≤ k
  · by_cases hlt : (k : ℕ) < off + 6
    · rw [if_pos hle, if_pos ⟨hle, hlt⟩, List.getElem?_range (by omega)]
      rfl
    · rw [if_pos hle, if_neg fun h ↦ hlt h.2,
        List.getElem?_eq_none (by rw [List.length_range]; omega)]
      rfl
  · rw [if_neg hle, if_neg fun h ↦ hle h.1]

end Copies

section Options

variable {opts : List Opt} {o : Opt} {s t : Settings} {dst src : Option Arg}

theorem lastSrc_concat : lastSrc (opts ++ [o]) = o.src?.or (lastSrc opts) := by
  rw [lastSrc, List.filterMap_append, List.getLast?_append]
  cases o <;> rfl

theorem lastDst_concat : lastDst (opts ++ [o]) = o.dst?.or (lastDst opts) := by
  rw [lastDst, List.filterMap_append, List.getLast?_append]
  cases o <;> rfl

theorem headerWith_none (val : Arg → ℕ → UInt8) : headerWith val none none = u8aIeeeHeader := by
  funext k
  rw [headerWith]
  split_ifs <;> rfl

/-- An option for the destination. -/
theorem memcpy_headerWith_dst (a : Arg) :
    memcpy (headerWith Arg.macByte dst src) 4 a.mac = headerWith Arg.macByte (some a) src := by
  funext k
  rw [memcpy_mac, headerWith, headerWith]
  split_ifs <;> rfl

/-- An option for the source. -/
theorem memcpy_headerWith_src (a : Arg) :
    memcpy (memcpy (headerWith Arg.macByte dst src) 16 a.mac) 10 a.mac =
      headerWith Arg.macByte dst (some a) := by
  funext k
  rw [memcpy_mac, memcpy_mac, headerWith, headerWith]
  split_ifs <;> first | rfl | omega

/-- What one option does to the header. -/
theorem Settings.ieeeHeader_option (hs : s.ieeeHeader = headerWith Arg.macByte dst src)
    (h : s.option o = some t) :
    t.ieeeHeader = headerWith Arg.macByte (o.dst?.or dst) (o.src?.or src) := by
  cases o with
  | h | unknown => exact nomatch h
  | s a =>
    obtain rfl := Option.some_inj.mp h
    dsimp only
    rw [hs, memcpy_headerWith_src]
    rfl
  | t a =>
    obtain rfl := Option.some_inj.mp h
    dsimp only
    rw [hs, memcpy_headerWith_dst]
    rfl
  | _ =>
    obtain rfl := Option.some_inj.mp h
    exact hs

/-- What all of them leave: the last address of each kind, as the loops read it. -/
theorem Settings.ieeeHeader_options (h : defaultSettings.options opts = some s) :
    s.ieeeHeader = headerWith Arg.macByte (lastDst opts) (lastSrc opts) := by
  induction opts using List.reverseRecOn generalizing s with
  | nil =>
    obtain rfl := Option.some_inj.mp h
    exact (headerWith_none _).symm
  | append_singleton opts o ih =>
    rw [Settings.options_concat] at h
    obtain ⟨t, ht, hts⟩ := Option.bind_eq_some_iff.mp h
    rw [lastDst_concat, lastSrc_concat]
    exact Settings.ieeeHeader_option (ih ht) hts

theorem mem_of_lastDst {a : Arg} (h : a ∈ lastDst opts) : .t a ∈ opts := by
  obtain ⟨o, ho, hdst⟩ := List.mem_filterMap.mp (List.mem_of_getLast? h)
  cases o with
  | t b => exact Option.some_inj.mp hdst ▸ ho
  | _ => exact nomatch hdst

theorem mem_of_lastSrc {a : Arg} (h : a ∈ lastSrc opts) : .s a ∈ opts := by
  obtain ⟨o, ho, hsrc⟩ := List.mem_filterMap.mp (List.mem_of_getLast? h)
  cases o with
  | s b => exact Option.some_inj.mp hsrc ▸ ho
  | _ => exact nomatch hsrc

theorem headerWith_dst (val : Arg → ℕ → UInt8) (a : Arg) (src : Option Arg) {i : ℕ} (hi : i < 6) :
    headerWith val (some a) src ⟨4 + i, by omega⟩ = val a i := by
  rw [headerWith, if_pos (by dsimp only; omega), Option.elim_some]
  exact congrArg (val a) (Nat.add_sub_cancel_left 4 i)

theorem headerWith_src (val : Arg → ℕ → UInt8) (a : Arg) (dst : Option Arg) {i : ℕ} (hi : i < 6) :
    headerWith val dst (some a) ⟨10 + i, by omega⟩ = val a i := by
  rw [headerWith, if_neg (by dsimp only; omega), if_pos (by dsimp only; omega), Option.elim_some]
  exact congrArg (val a) (Nat.add_sub_cancel_left 10 i)

/-- Two readings make the same header if and only if they agree on the addresses in it. -/
theorem headerWith_eq_iff {val val' : Arg → ℕ → UInt8} :
    headerWith val dst src = headerWith val' dst src ↔
      ∀ a, a ∈ dst ∨ a ∈ src → ∀ i < 6, val a i = val' a i := by
  constructor
  · rintro h a (rfl | rfl) i hi
    · rw [← headerWith_dst val a src hi, h, headerWith_dst val' a src hi]
    · rw [← headerWith_src val a dst hi, h, headerWith_src val' a dst hi]
  · intro h
    funext k
    rw [headerWith, headerWith]
    split_ifs
    · cases dst with
      | none => rfl
      | some a => exact h a (.inl rfl) _ (by omega)
    · cases src with
      | none => rfl
      | some a => exact h a (.inr rfl) _ (by omega)
    · cases src with
      | none => rfl
      | some a => exact h a (.inr rfl) _ (by omega)
    · rfl

end Options

/-! ## The addresses that are sent -/

/-- **The addresses, exactly.** After any options none of which ends in `usage`, and whose addresses
are textual, the header has the addresses that the last options for them denote, and is as it was
elsewhere, if and only if no byte of these addresses ends in a letter in upper case. -/
theorem ieeeHeader_eq_iff {opts : List Opt} (hexit : ∀ o ∈ opts, o.Exits = false)
    (hmac : ∀ a, .s a ∈ opts ∨ .t a ∈ opts → a.IsMac) :
    ∃ s, defaultSettings.options opts = some s ∧
      (s.ieeeHeader = headerWith Arg.denoted (lastDst opts) (lastSrc opts) ↔
        ∀ a, a ∈ lastDst opts ∨ a ∈ lastSrc opts →
          ∀ i < 6, isUpper (a.byte (i * 3 + 1)) = false) := by
  obtain ⟨s, hs⟩ := Option.isSome_iff_exists.mp (Settings.isSome_options_iff.mpr hexit)
  refine ⟨s, hs, ?_⟩
  rw [Settings.ieeeHeader_options hs, headerWith_eq_iff]
  refine forall_congr' fun a ↦ forall_congr' fun ha ↦ forall_congr' fun i ↦
    forall_congr' fun hi ↦ ?_
  have hamac : a.IsMac := hmac a (ha.symm.imp mem_of_lastSrc mem_of_lastDst)
  exact hamac.macByte_eq_iff hi

/-- `00:00:00:00:00:` and then the last byte. -/
def macText (c c' : UInt8) : Arg :=
  ⟨[48, 48, 58, 48, 48, 58, 48, 48, 58, 48, 48, 58, 48, 48, 58, c, c'], fun _ ↦ 0⟩

theorem ieeeHeader_eq_iff_lower :
    ∃ s, defaultSettings.options [.t (macText 65 102), .s (macText 48 97)] = some s ∧
      s.ieeeHeader = headerWith Arg.denoted (some (macText 65 102)) (some (macText 48 97)) := by
  have hmac : ∀ a, .s a ∈ [Opt.t (macText 65 102), .s (macText 48 97)] ∨
      .t a ∈ [Opt.t (macText 65 102), .s (macText 48 97)] → a.IsMac := by
    intro a ha
    have ha : a = macText 65 102 ∨ a = macText 48 97 := by simpa [or_comm] using ha
    rcases ha with rfl | rfl
    · exact ⟨rfl, by decide, by decide⟩
    · exact ⟨rfl, by decide, by decide⟩
  obtain ⟨s, hs, hiff⟩ := ieeeHeader_eq_iff (by simp [Opt.Exits]) hmac
  refine ⟨s, hs, hiff.mpr ?_⟩
  rintro a (⟨⟨⟩⟩ | ⟨⟨⟩⟩)
  · decide
  · decide

/-- The destination `00:00:00:00:00:0A` is sent as `00:00:00:00:00:ea`. -/
theorem exists_misread_address :
    (macText 48 65).IsMac ∧ (macText 48 65).denoted 5 = 0x0a ∧
      ∃ s, defaultSettings.options [.t (macText 48 65)] = some s ∧ s.ieeeHeader 9 = 0xea ∧
        s.ieeeHeader ≠ headerWith Arg.denoted (some (macText 48 65)) none := by
  refine ⟨⟨rfl, by decide, by decide⟩, by decide, _, rfl, by decide, fun h ↦ ?_⟩
  exact absurd (congrFun h 9) (by decide)

end UcsmaRateControl
