import ThunderboltIbverbs.Config.Identity

/-! # The texts of the attribute files

What `kernel/configfs.c` reads with `sscanf` and `sysfs_streq` of the kernel, and what it
prints.  A character is a byte. -/
set_option autoImplicit false
namespace Tbv.Config

def einval : Int := -22

abbrev Text := List Char

/-- The bytes before the first NUL. -/
def cString (buf : Text) : Text := buf.takeWhile (· != '\x00')

/-- `isspace` of the kernel, which has the no-break space of Latin-1. -/
def isSpace (c : Char) : Bool :=
  (9 ≤ c.toNat && c.toNat ≤ 13) || c.toNat == 32 || c.toNat == 160

def skipSpaces (str : Text) : Text := str.dropWhile isSpace

/-- A trailing newline on either side is ignored. -/
def sysfsStreq (s1 s2 : Text) : Bool := s1 == s2 || s1 == s2 ++ ['\n'] || s1 ++ ['\n'] == s2

/-- The conversions the formats of the file are made of. -/
inductive Directive where
  /-- white space: any amount, or none -/
  | space
  | literal (c : Char)
  /-- `%u` -/
  | number
  /-- `%<width>s` -/
  | word (width : Nat)
  /-- `%<width>[^<stop>]` -/
  | until (width : Nat) (stop : Char)

/-- What one conversion stores. -/
inductive Field where
  | number (n : UInt32)
  | word (text : Text)
  deriving DecidableEq, Repr

/-- `simple_strntoull` in base 10, cut to an `unsigned int`. -/
def readNumber (digits : Text) : UInt32 :=
  UInt32.ofNat (digits.foldl (fun n c => 10 * n + (c.toNat - 48)) 0)

/-- The fields stored before the first directive that does not match. -/
def sscanf : Text → List Directive → List Field
  | _, [] => []
  | str, .space :: fmt => sscanf (skipSpaces str) fmt
  | str, .literal c :: fmt => if str.head? = some c then sscanf str.tail fmt else []
  | str, .number :: fmt =>
      let str := skipSpaces str
      let digits := str.takeWhile Char.isDigit
      if digits.isEmpty then []
      else .number (readNumber digits) :: sscanf (str.drop digits.length) fmt
  | str, .word width :: fmt =>
      if str.isEmpty then []
      else
        let str := skipSpaces str
        let text := (str.takeWhile (!isSpace ·)).take width
        .word text :: sscanf (str.drop text.length) fmt
  | str, .until width stop :: fmt =>
      let text := (str.takeWhile (· != stop)).take width
      if text.isEmpty then [] else .word text :: sscanf (str.drop text.length) fmt

def parseIpv4 (buf : Text) : Except Int Addr :=
  match sscanf buf [.number, .literal '.', .number, .literal '.', .number, .literal '.',
      .number] with
  | [.number a, .number b, .number c, .number d] =>
      if 255 < a ∨ 255 < b ∨ 255 < c ∨ 255 < d then .error einval
      else .ok (addrV4 a.toUInt8 b.toUInt8 c.toUInt8 d.toUInt8)
  | _ => .error einval

def parseGidType (type : Text) : Except Int UInt8 :=
  if type = "roce-v2".toList then .ok gidRoceV2
  else if type = "roce-v1".toList then .ok gidRoceV1
  else if type = "ib".toList then .ok gidIb
  else .error einval

def gidTypeName (gidType : UInt8) : Text :=
  if gidType = gidRoceV1 then "roce-v1".toList
  else if gidType = gidRoceV2 then "roce-v2".toList
  else if gidType = gidIb then "ib".toList
  else "unknown".toList

def decimal (n : Nat) : Text := Nat.toDigits 10 n

/-- The four numbers of an IPv4 address, in the last bytes of the GID. -/
def Addr.dotted (addr : Addr) : Text :=
  let number := fun i => decimal (addr.bytes.getD i 0).toNat
  number 12 ++ '.' :: number 13 ++ '.' :: number 14 ++ '.' :: number 15

def formatIpv4 (addr : Addr) : Text :=
  if addr.family ≠ afInet then "<unset>\n".toList else addr.dotted ++ ['\n']

/-- A GID table entry, as `app_gids` and `selection` print it. -/
def formatGid (deviceId : UInt32) (port gidIndex : UInt8) (gidType : UInt8) (addr : Addr) :
    Text :=
  decimal deviceId.toNat ++ ' ' :: decimal port.toNat ++ ' ' :: decimal gidIndex.toNat ++
    ' ' :: gidTypeName gidType ++ ' ' :: addr.dotted ++ ['\n']

/-! ## What is printed is read back -/

/-- A number is read up to the first byte that is no digit. -/
theorem sscanf_number {n : UInt8} {c : Char} {rest : Text} {fmt : List Directive}
    (stops : c.isDigit = false) : sscanf (decimal n.toNat ++ c :: rest) (.number :: fmt) =
      .number n.toUInt32 :: sscanf (c :: rest) fmt := by
  have digits : ∀ m < 256, (decimal m).all Char.isDigit ∧ (decimal m).head?.any (!isSpace ·) ∧
      readNumber (decimal m) = UInt32.ofNat m := by decide +kernel
  obtain ⟨every, first, number⟩ := digits n.toNat n.toNat_lt
  have plain : skipSpaces (decimal n.toNat ++ c :: rest) = decimal n.toNat ++ c :: rest := by
    obtain ⟨d, tail, is⟩ : ∃ d tail, decimal n.toNat = d :: tail := by
      cases is : decimal n.toNat with
      | nil =>
          rw [is] at first
          cases first
      | cons d tail => exact ⟨d, tail, rfl⟩
    rw [is] at first ⊢
    exact List.dropWhile_cons_of_neg (by simpa using first)
  have taken : (decimal n.toNat ++ c :: rest).takeWhile Char.isDigit = decimal n.toNat := by
    rw [List.takeWhile_append_of_pos (List.all_eq_true.mp every),
      List.takeWhile_cons_of_neg (by simp [stops]), List.append_nil]
  have some : (decimal n.toNat).isEmpty = false := by
    cases is : decimal n.toNat with
    | nil =>
        rw [is] at first
        cases first
    | cons d tail => rfl
  rw [sscanf, plain, taken, some, if_neg Bool.false_ne_true, List.drop_left, number,
    UInt32.ofNat_uInt8ToNat]

theorem sscanf_literal {c : Char} {rest : Text} {fmt : List Directive} :
    sscanf (c :: rest) (.literal c :: fmt) = sscanf rest fmt := if_pos rfl

theorem parseIpv4_formatIpv4 (a b c d : UInt8) :
    parseIpv4 (formatIpv4 (addrV4 a b c d)) = .ok (addrV4 a b c d) := by
  have printed : formatIpv4 (addrV4 a b c d) = decimal a.toNat ++ '.' :: (decimal b.toNat ++
      '.' :: (decimal c.toNat ++ '.' :: (decimal d.toNat ++ ['\n']))) := by
    simp [formatIpv4, Addr.dotted, addrV4, List.replicate]
  have small (n : UInt8) : ¬ 255 < n.toUInt32 := by
    rw [UInt32.lt_iff_toNat_lt, UInt8.toNat_toUInt32]
    have := n.toNat_lt
    exact fun large => by change 255 < n.toNat at large; omega
  rw [parseIpv4, printed, sscanf_number (by decide), sscanf_literal, sscanf_number (by decide),
    sscanf_literal, sscanf_number (by decide), sscanf_literal, sscanf_number (by decide), sscanf]
  dsimp only
  rw [if_neg (by simp [small])]
  simp

theorem parseGidType_ok_iff {type : Text} {gidType : UInt8} :
    parseGidType type = .ok gidType ↔ type = gidTypeName gidType ∧
      (gidType = gidRoceV2 ∨ gidType = gidRoceV1 ∨ gidType = gidIb) := by
  unfold parseGidType
  constructor
  · intro parsed
    split at parsed
    · rename_i is
      cases parsed
      exact ⟨is, .inl rfl⟩
    · split at parsed
      · rename_i is
        cases parsed
        exact ⟨is, .inr (.inl rfl)⟩
      · split at parsed
        · rename_i is
          cases parsed
          exact ⟨is, .inr (.inr rfl)⟩
        · cases parsed
  · rintro ⟨rfl, rfl | rfl | rfl⟩
    · rfl
    · rfl
    · rfl

end Tbv.Config
