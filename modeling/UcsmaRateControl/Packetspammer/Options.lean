import Mathlib.Data.Fin.VecNotation
import Mathlib.Data.List.Basic

/-!
# The options of `packetspammer`

`main` goes through the options that `getopt_long` finds, and writes each of them to its variable.
The numbers are read with `atoi`, and those for the length of a frame and for the number of packets
are stored unsigned. The addresses are read by two loops of `main` itself, digit by digit, and go
into the header that is sent with every packet.
-/

namespace UcsmaRateControl

/-! ## Arguments -/

/-- A string of `argv`, with the memory behind it. -/
structure Arg where
  text : List UInt8
  /-- What stands behind the terminating zero. -/
  behind : ℕ → UInt8

/-- `optarg[pos]`. -/
def Arg.byte (a : Arg) (pos : ℕ) : UInt8 :=
  (a.text ++ [0])[pos]?.getD (a.behind (pos - a.text.length - 1))

/-- `isspace`. -/
def isSpace (b : UInt8) : Bool := b = 32 || (9 ≤ b && b ≤ 13)

/-- `isdigit`. -/
def isDigit (b : UInt8) : Bool := 48 ≤ b && b ≤ 57

/-- The number that the digits at the head of a text make. -/
def digits (text : List UInt8) : ℕ :=
  (text.takeWhile isDigit).foldl (fun n b ↦ 10 * n + (b - 48).toNat) 0

/-- What does not fit into a `long` is cut off at its bounds. -/
def clampLong (n : ℤ) : Int32 := Int32.ofInt (max (-2147483648) (min 2147483647 n))

/-- `atoi`, where a `long` has 32 bits. -/
def atoi (text : List UInt8) : Int32 :=
  match text.dropWhile isSpace with
  | 45 :: rest => clampLong (-(digits rest))
  | 43 :: rest => clampLong (digits rest)
  | rest => clampLong (digits rest)

/-! ## The header -/

/-- `memcpy` into an array, from the offset `off` on. -/
def memcpy {n : ℕ} (dst : Fin n → UInt8) (off : ℕ) (src : List UInt8) : Fin n → UInt8 := fun k ↦
  if off ≤ k then src[(k : ℕ) - off]?.getD (dst k) else dst k

/-- `u8aIeeeHeader`, as it is initialised: the receiver at 4, the destination at 10 and the source
at 16. -/
def u8aIeeeHeader : Fin 24 → UInt8 :=
  ![0x08, 0x01, 0x00, 0x00,
    0xff, 0xff, 0xff, 0xff, 0xff, 0xff,
    0x13, 0x22, 0x33, 0x44, 0x55, 0x66,
    0x13, 0x22, 0x33, 0x44, 0x55, 0x66,
    0x10, 0x86]

/-- The first digit of a byte of an address. The sum is an `int`, and is stored in a `u8`; whether a
`char` is signed makes no difference. -/
def firstDigit (c : UInt8) : UInt8 := if c ≤ 57 ∧ 48 ≤ c then c - 48 else c - 97 + 10

/-- The second one. -/
def secondDigit (tmp c : UInt8) : UInt8 :=
  if c ≤ 57 ∧ 48 ≤ c then tmp * 16 + c - 48 else tmp * 16 + c - 97 + 10

/-- A byte of the address that the loop reads. -/
def Arg.macByte (a : Arg) (i : ℕ) : UInt8 :=
  let pos := i * 3
  secondDigit (firstDigit (a.byte pos)) (a.byte (pos + 1))

/-- `mac`, once the loop has written all of it. -/
def Arg.mac (a : Arg) : List UInt8 := (List.range 6).map a.macByte

/-! ## Going through the options -/

/-- What `getopt_long` returns. -/
inductive Opt
  /-- The long option for `-f`, which sets the flag and returns zero. -/
  | fcs
  /-- The long option for `-h`, which sets a flag that nothing reads. -/
  | help
  | h
  | d (optarg : Arg)
  | l (optarg : Arg)
  | f
  | c (optarg : Arg)
  | i (optarg : Arg)
  | s (optarg : Arg)
  | t (optarg : Arg)
  /-- An option that there is not. -/
  | unknown

/-- The variables that the options write to. -/
structure Settings where
  nDelay : Int32
  rateStatInterval : Int32
  frameLen : UInt32
  count : UInt32
  flagMarkWithFCS : Bool
  ieeeHeader : Fin 24 → UInt8

/-- Their initial values. -/
def defaultSettings : Settings where
  nDelay := 100000
  rateStatInterval := 1
  frameLen := 1000
  count := 0
  flagMarkWithFCS := false
  ieeeHeader := u8aIeeeHeader

/-- What the `switch` does, unless it ends in `usage`. -/
def Settings.option (s : Settings) : Opt → Option Settings
  | .fcs => some { s with flagMarkWithFCS := true }
  | .help => some s
  | .h => none
  | .d optarg => some { s with nDelay := atoi optarg.text }
  | .l optarg => some { s with frameLen := (atoi optarg.text).toUInt32 }
  | .f => some { s with flagMarkWithFCS := true }
  | .c optarg => some { s with count := (atoi optarg.text).toUInt32 }
  | .i optarg => some { s with rateStatInterval := atoi optarg.text }
  | .s optarg =>
    let ieeeHeader := memcpy s.ieeeHeader 16 optarg.mac
    some { s with ieeeHeader := memcpy ieeeHeader 10 optarg.mac }
  | .t optarg => some { s with ieeeHeader := memcpy s.ieeeHeader 4 optarg.mac }
  | .unknown => none

/-- The loop over the options. -/
def Settings.options (s : Settings) (opts : List Opt) : Option Settings :=
  opts.foldlM Settings.option s

/-- The options that end in `usage`. -/
def Opt.Exits : Opt → Bool
  | .h => true
  | .unknown => true
  | _ => false

/-- `main` gets through the options if and only if none of them ends in `usage`. -/
theorem Settings.isSome_options_iff {s : Settings} {opts : List Opt} :
    (s.options opts).isSome = true ↔ ∀ o ∈ opts, o.Exits = false := by
  induction opts generalizing s with
  | nil => exact iff_of_true rfl nofun
  | cons o opts ih =>
    rw [options, List.foldlM_cons, List.forall_mem_cons]
    cases o with
    | h | unknown => exact iff_of_false Bool.false_ne_true fun h ↦ nomatch h.1
    | _ => exact ih.trans ⟨fun h ↦ ⟨rfl, h⟩, And.right⟩

theorem Settings.options_concat {s : Settings} {opts : List Opt} {o : Opt} :
    s.options (opts ++ [o]) = (s.options opts).bind fun t ↦ t.option o := by
  rw [options, List.foldlM_append]
  refine congrArg _ (funext fun t ↦ ?_)
  rw [List.foldlM_cons]
  exact Option.bind_fun_some _

example : atoi [32, 45, 49, 50, 48, 120] = -120 := by decide

end UcsmaRateControl
