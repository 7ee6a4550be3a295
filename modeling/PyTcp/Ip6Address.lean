import PyTcp.Struct

namespace PyTcp

/-- `struct.unpack("!LLLL", b)` joined as `(v1 << 96) + (v2 << 64) + (v3 << 32) + v4`, as the
`Ip6Address` and `Ip6Mask` constructors both do with 16 bytes. -/
def unpackLLLL (bytes : List UInt8) : Nat :=
  (unpackFrom bytes 0 4 <<< 96) + (unpackFrom bytes 4 4 <<< 64) + (unpackFrom bytes 8 4 <<< 32) +
    unpackFrom bytes 12 4

theorem unpackLLLL_lt (bytes : List UInt8) : unpackLLLL bytes < 2 ^ 128 := by
  have w1 := unpackFrom_lt bytes 0 4
  have w2 := unpackFrom_lt bytes 4 4
  have w3 := unpackFrom_lt bytes 8 4
  have w4 := unpackFrom_lt bytes 12 4
  simp only [unpackLLLL, Nat.shiftLeft_eq, Nat.reduceMul, Nat.reducePow] at w1 w2 w3 w4 ⊢
  omega

/-- On sixteen bytes the four words joined are the big-endian value of the bytes. -/
theorem unpackLLLL_eq {bytes : List UInt8} (length : bytes.length = 16) :
    unpackLLLL bytes = bigEndian bytes := by
  have chunk : ∀ m, m + 4 ≤ 16 → bigEndian (bytes.take (m + 4)) =
      bigEndian (bytes.take m) * 2 ^ 32 + unpackFrom bytes m 4 := by
    intro m fits
    rw [List.take_add, bigEndian_append, unpackFrom, List.length_take, List.length_drop, length,
      show min 4 (16 - m) = 4 by omega]
  have whole : bigEndian bytes = bigEndian (bytes.take 16) := by
    rw [List.take_of_length_le (by omega)]
  have first : bigEndian (bytes.take 4) = unpackFrom bytes 0 4 := by
    simp [unpackFrom]
  rw [whole, chunk 12 (by decide), chunk 8 (by decide), chunk 4 (by decide), first, unpackLLLL]
  simp only [Nat.shiftLeft_eq, Nat.reducePow]
  ring

/-- `struct.pack("!LLLL", (v >> 96) & 0xFFFFFFFF, (v >> 64) & 0xFFFFFFFF, (v >> 32) & 0xFFFFFFFF,
v & 0xFFFFFFFF)`, as `__bytes__` of `Ip6Address` and of `Ip6Mask` both do. -/
def packLLLL (value : Nat) : Option (List UInt8) :=
  packFields [(4, (value >>> 96) &&& 0xFFFFFFFF), (4, (value >>> 64) &&& 0xFFFFFFFF),
    (4, (value >>> 32) &&& 0xFFFFFFFF), (4, value &&& 0xFFFFFFFF)]

/-- The four words never overflow their fields: the result is the low sixteen bytes of the value
in network order. -/
theorem packLLLL_eq (value : Nat) : packLLLL value = some (bytesBE 16 value) := by
  have word : ∀ x : Nat, x &&& 0xFFFFFFFF = x % 2 ^ (8 * 4) :=
    fun x => Nat.and_pow_two_sub_one_eq_mod x 32
  have fit : FieldsFit [(4, (value >>> 96) &&& 0xFFFFFFFF), (4, (value >>> 64) &&& 0xFFFFFFFF),
      (4, (value >>> 32) &&& 0xFFFFFFFF), (4, value &&& 0xFFFFFFFF)] := by
    simp only [FieldsFit, List.forall_mem_cons, word, List.not_mem_nil, false_imp_iff,
      implies_true, and_true]
    exact ⟨Nat.mod_lt _ (by decide), Nat.mod_lt _ (by decide), Nat.mod_lt _ (by decide),
      Nat.mod_lt _ (by decide)⟩
  have twelve : bytesBE 16 value = bytesBE 12 (value >>> 32) ++ bytesBE 4 value :=
    bytesBE_add 12 4 _
  have eight : bytesBE 12 (value >>> 32) = bytesBE 8 (value >>> 64) ++ bytesBE 4 (value >>> 32) := by
    rw [show value >>> 64 = (value >>> 32) >>> 32 from Nat.shiftRight_add _ 32 32]
    exact bytesBE_add 8 4 _
  have four : bytesBE 8 (value >>> 64) = bytesBE 4 (value >>> 96) ++ bytesBE 4 (value >>> 64) := by
    rw [show value >>> 96 = (value >>> 64) >>> 32 from Nat.shiftRight_add _ 64 32]
    exact bytesBE_add 4 4 _
  rw [packLLLL, packFields_eq_some fit, twelve, eight, four]
  simp only [List.flatMap_cons, List.flatMap_nil, List.append_nil, word, bytesBE_mod,
    List.append_assoc]

namespace Ip6Address

/-- `Ip6Address(address)` for an `int`: `address in range(340282366920938463463374607431768211455)`,
else `Ip6AddressFormatError`. The range ends one below `2 ** 128`. -/
def ofInt (address : Int) : Option Ip6Address :=
  if valid : 0 ≤ address ∧ address < 340282366920938463463374607431768211455 then
    some ⟨address.toNat, by rw [Nat.pow_succ]; omega⟩
  else none

/-- `Ip6Address(address)` for `bytes` of length 16: `struct.unpack("!LLLL", address)`, the four
words joined by shifts; any other length raises `Ip6AddressFormatError`. -/
def ofBytes (address : List UInt8) : Option Ip6Address :=
  if address.length = 16 then some ⟨unpackLLLL address, unpackLLLL_lt address⟩ else none

/-- `__bytes__`: the four 32-bit words of `_address`. -/
def toBytes (a : Ip6Address) : Option (List UInt8) := packLLLL a.toNat

/-- `is_loopback`: `::1`. -/
def isLoopback (a : Ip6Address) : Bool := a.toNat == 1

/-- `is_global`: the range of `2000::/3`. -/
def isGlobal (a : Ip6Address) : Bool :=
  decide (42535295865117307932921825928971026432 ≤ a.toNat ∧
    a.toNat < 85070591730234615865843651857942052864)

/-- `is_private`: the range of `fc00::/7`. -/
def isPrivate (a : Ip6Address) : Bool :=
  decide (334965454937798799971759379190646833152 ≤ a.toNat ∧
    a.toNat < 337623910929368631717566993311207522304)

/-- `is_link_local`: the range of `fe80::/10`. -/
def isLinkLocal (a : Ip6Address) : Bool :=
  decide (338288524927261089654018896841347694592 ≤ a.toNat ∧
    a.toNat < 338620831926207318622244848606417780736)

/-- `multicast_mac`: `none` for the `AssertionError` of an address that is not multicast, else
`MacAddress(int(MacAddress(0x333300000000)) | self._address & 0xFFFFFFFF)`. -/
def multicastMac (a : Ip6Address) : Option MacAddress :=
  if a.isMulticast then
    some ⟨0x333300000000 ||| a.toNat &&& 0xFFFFFFFF,
      Nat.or_lt_two_pow (by decide) (Nat.and_lt_two_pow _ (by decide))⟩
  else none

/-- A multicast address maps to the MAC in `33:33:00:00:00:00/16` that carries its low 32 bits. -/
theorem multicastMac_eq_some {a : Ip6Address} (multicast : a.isMulticast = true) :
    ∃ mac, a.multicastMac = some mac ∧ mac.toNat = 0x333300000000 + a.toNat % 2 ^ 32 := by
  refine ⟨_, if_pos multicast, ?_⟩
  show 0x333300000000 ||| a.toNat &&& (2 ^ 32 - 1) = 2 ^ 32 * 0x3333 + a.toNat % 2 ^ 32
  rw [Nat.and_pow_two_sub_one_eq_mod]
  exact (Nat.mul_add_lt_is_or (Nat.mod_lt _ (Nat.two_pow_pos 32)) 0x3333).symm

theorem ofInt_eq_some_iff (address : Int) (a : Ip6Address) :
    ofInt address = some a ↔ 0 ≤ address ∧ address < 2 ^ 128 - 1 ∧ (a.toNat : Int) = address := by
  have top : (2 : Int) ^ 128 - 1 = 340282366920938463463374607431768211455 := by norm_num
  rw [top]
  unfold ofInt
  split_ifs with valid
  · simp only [Option.some.injEq, Ip6Address.ext_iff]
    omega
  · constructor
    · nofun
    · rintro ⟨nonneg, below, -⟩
      exact absurd ⟨nonneg, below⟩ valid

/-- `Ip6Address(value)` for a non-negative `value`. -/
theorem ofInt_natCast_eq_some_iff (value : Nat) (a : Ip6Address) :
    ofInt value = some a ↔ value < 2 ^ 128 - 1 ∧ a.toNat = value := by
  have top : (2 : Int) ^ 128 - 1 = ((2 ^ 128 - 1 : Nat) : Int) := by norm_num
  rw [ofInt_eq_some_iff, top, Int.ofNat_lt, Int.ofNat_inj]
  exact ⟨fun ⟨_, fits, same⟩ => ⟨fits, same⟩, fun ⟨fits, same⟩ => ⟨Int.ofNat_nonneg _, fits, same⟩⟩

theorem ofInt_natCast_eq_none_iff (value : Nat) : ofInt value = none ↔ 2 ^ 128 - 1 ≤ value := by
  rw [Option.eq_none_iff_forall_not_mem]
  refine ⟨fun none => Nat.le_of_not_lt fun fits => none ⟨value, by omega⟩ ?_, ?_⟩
  · exact (ofInt_natCast_eq_some_iff _ _).mpr ⟨fits, rfl⟩
  · intro above a parsed
    exact absurd ((ofInt_natCast_eq_some_iff _ _).mp parsed).1 (Nat.not_lt_of_le above)

/-- `unspecified`: `Ip6Address(0)` never raises and is `::`. -/
theorem ofInt_zero : ofInt 0 = some unspecified :=
  (ofInt_natCast_eq_some_iff 0 unspecified).mpr ⟨by decide, rfl⟩

/-- `solicited_node_multicast` is the prefix `ff02::1:ff00:0` plus the low 24 bits. -/
theorem toNat_solicitedNodeMulticast (a : Ip6Address) :
    a.solicitedNodeMulticast.toNat = solicitedNodePrefix + a.toNat % 2 ^ 24 := by
  show a.toNat &&& (2 ^ 24 - 1) ||| 2 ^ 24 * 0xff0200000000000000000001ff = _
  rw [Nat.and_pow_two_sub_one_eq_mod, Nat.or_comm,
    ← Nat.mul_add_lt_is_or (Nat.mod_lt _ (Nat.two_pow_pos 24))]
  rfl

/-- `solicited_node_multicast` never raises, lands in `ff02::1:ff00:0/104`, keeps the low 24
bits and is idempotent; two addresses share it exactly when their low 24 bits agree; and its
`multicast_mac` is `33:33:ff` followed by those bits. -/
theorem solicitedNodeMulticast_laws (a : Ip6Address) :
    ofInt (a.toNat &&& 0xFFFFFF ||| solicitedNodePrefix : Nat) = some a.solicitedNodeMulticast ∧
    a.solicitedNodeMulticast.isSolicitedNodeMulticast = true ∧
    a.solicitedNodeMulticast.isMulticast = true ∧
    a.solicitedNodeMulticast.toNat &&& 0xFFFFFF = a.toNat &&& 0xFFFFFF ∧
    a.solicitedNodeMulticast.solicitedNodeMulticast = a.solicitedNodeMulticast ∧
    (∀ b : Ip6Address, a.solicitedNodeMulticast = b.solicitedNodeMulticast ↔
      a.toNat &&& 0xFFFFFF = b.toNat &&& 0xFFFFFF) ∧
    ∃ mac, a.solicitedNodeMulticast.multicastMac = some mac ∧
      mac.toNat = 0x3333FF000000 ||| a.toNat &&& 0xFFFFFF := by
  have low : ∀ x : Nat, x &&& 0xFFFFFF = x % 2 ^ 24 := fun x => Nat.and_pow_two_sub_one_eq_mod x 24
  have value := toNat_solicitedNodeMulticast
  have rest := Nat.mod_lt a.toNat (Nat.two_pow_pos 24)
  have multicast : a.solicitedNodeMulticast.isMulticast = true := by
    simp only [isMulticast, decide_eq_true_eq, value, solicitedNodePrefix]
    omega
  obtain ⟨mac, found, macValue⟩ := multicastMac_eq_some multicast
  have tail : 0x3333FF000000 ||| a.toNat % 2 ^ 24 = 2 ^ 24 * 0x3333FF + a.toNat % 2 ^ 24 :=
    (Nat.mul_add_lt_is_or rest 0x3333FF).symm
  refine ⟨(ofInt_natCast_eq_some_iff _ _).mpr ⟨?_, rfl⟩, ?_, multicast, ?_, ?_, fun b => ?_,
    mac, found, ?_⟩
  · show a.solicitedNodeMulticast.toNat < _
    rw [value, solicitedNodePrefix]
    omega
  · simp only [isSolicitedNodeMulticast, decide_eq_true_eq, value, solicitedNodePrefix]
    omega
  · rw [low, low, value, solicitedNodePrefix]
    omega
  · rw [Ip6Address.ext_iff, value, value, solicitedNodePrefix]
    omega
  · rw [Ip6Address.ext_iff, value, value, low, low, solicitedNodePrefix]
    omega
  · rw [macValue, low, tail, value, solicitedNodePrefix]
    omega

/-- `__bytes__` never raises: it writes the sixteen bytes of the address in network order. -/
theorem toBytes_eq (a : Ip6Address) : a.toBytes = some (bytesBE 16 a.toNat) := packLLLL_eq a.toNat

/-- `Ip6Address(b)` for sixteen bytes never raises and holds their big-endian value, the reading
`ofBytes16` gives the addresses of the datagram an Unreachable message quotes. -/
theorem ofBytes_eq_ofBytes16 {address : List UInt8} (length : address.length = 16) :
    ofBytes address = some (ofBytes16 address length) := by
  rw [ofBytes, if_pos length, Option.some.injEq, Ip6Address.ext_iff]
  exact unpackLLLL_eq length

@[simp]
theorem toNat_ofBytes16 (bytes : List UInt8) (length : bytes.length = 16) :
    (ofBytes16 bytes length).toNat = bigEndian bytes := rfl

/-- The sixteen bytes of an address read back as the address. -/
theorem ofBytes16_bytesBE (a : Ip6Address) (length : (bytesBE 16 a.toNat).length = 16) :
    ofBytes16 (bytesBE 16 a.toNat) length = a := by
  have fits : a.toNat < 2 ^ (8 * 16) := a.toNat_lt
  rw [Ip6Address.ext_iff, toNat_ofBytes16]
  exact bigEndian_bytesBE_of_lt fits

/-- `Ip6Address(bytes(a)) == a`. -/
theorem ofBytes_toBytes (a : Ip6Address) : a.toBytes.bind ofBytes = some a := by
  rw [toBytes_eq, Option.some_bind, ofBytes_eq_ofBytes16 (length_bytesBE 16 a.toNat),
    Option.some.injEq, Ip6Address.ext_iff, toNat_ofBytes16]
  have fits : a.toNat < 2 ^ (8 * 16) := a.toNat_lt
  exact bigEndian_bytesBE_of_lt fits

/-- `bytes(Ip6Address(b)) == b` for sixteen bytes. -/
theorem toBytes_ofBytes {address : List UInt8} (length : address.length = 16) :
    (ofBytes address).bind toBytes = some address := by
  rw [ofBytes_eq_ofBytes16 length, Option.some_bind, toBytes_eq]
  exact congrArg some (length ▸ bytesBE_bigEndian address)

/-- Sixteen zero bytes, the address `::`. -/
theorem toBytes_ofBytes_zeros :
    (List.replicate 16 (0 : UInt8)).length = 16 ∧
      (ofBytes (List.replicate 16 0)).bind toBytes = some (List.replicate 16 0) :=
  ⟨rfl, toBytes_ofBytes rfl⟩

/-- The all-ones address `ffff:...:ffff`: `Ip6Address(b"\xff" * 16)` holds `2 ** 128 - 1`, but
`Ip6Address(2 ** 128 - 1)` raises, as the integer branch's range stops one short of `2 ** 128`. -/
theorem ofInt_rejects_all_ones :
    ofInt (2 ^ 128 - 1) = none ∧ ∃ a, ofBytes (List.replicate 16 0xff) = some a ∧
      a.toNat = 2 ^ 128 - 1 ∧ ofInt a.toNat = none := by
  have top : (2 : Int) ^ 128 - 1 = ((2 ^ 128 - 1 : Nat) : Int) := by norm_num
  have allOnes : bigEndian (List.replicate 16 0xff) = 2 ^ 128 - 1 := rfl
  refine ⟨by rw [top, ofInt_natCast_eq_none_iff], _,
    ofBytes_eq_ofBytes16 (List.length_replicate 16 0xff), allOnes, ?_⟩
  rw [ofInt_natCast_eq_none_iff, toNat_ofBytes16, allOnes]

end Ip6Address

/-- The `width` binary digits of `value`, most significant first: `f"{value:0{width}b}"` for a
value below `2 ** width`. -/
def binaryDigits : Nat → Nat → List Bool
  | 0, _ => []
  | width + 1, value => value.testBit width :: binaryDigits width value

/-- `_validate_bits` on the digits of `f"{self._mask:0128b}"`: no one after the first zero,
`not bit_mask[bit_mask.index("0"):].count("1")`, and `True` when there is no zero and `index`
raises `ValueError`. -/
def validateDigits (digits : List Bool) : Bool :=
  match digits.indexOf? false with
  | some first => (digits.drop first).count true == 0
  | none => true

@[simp]
theorem validateDigits_nil : validateDigits [] = true := rfl

@[simp]
theorem validateDigits_cons_true (digits : List Bool) :
    validateDigits (true :: digits) = validateDigits digits := by
  unfold validateDigits
  rw [List.indexOf?_cons]
  cases digits.indexOf? false <;> rfl

@[simp]
theorem validateDigits_cons_false (digits : List Bool) :
    validateDigits (false :: digits) = decide (true ∉ digits) := by
  simp only [validateDigits, List.indexOf?_cons, beq_self_eq_true, if_true, List.drop_zero]
  by_cases present : true ∈ digits <;> simp [present, List.count_eq_zero]

theorem mem_binaryDigits {width value : Nat} {digit : Bool} :
    digit ∈ binaryDigits width value ↔ ∃ i < width, value.testBit i = digit := by
  induction width with
  | zero => simp [binaryDigits]
  | succ width ih =>
    simp only [binaryDigits, List.mem_cons, ih]
    constructor
    · rintro (top | ⟨i, below, bit⟩)
      · exact ⟨width, Nat.lt_succ_self _, top.symm⟩
      · exact ⟨i, by omega, bit⟩
    · rintro ⟨i, below, bit⟩
      rcases Nat.lt_succ_iff_lt_or_eq.mp below with lower | rfl
      · exact .inr ⟨i, lower, bit⟩
      · exact .inl bit.symm

theorem binaryDigits_congr {width a b : Nat} (same : ∀ i < width, a.testBit i = b.testBit i) :
    binaryDigits width a = binaryDigits width b := by
  induction width with
  | zero => rfl
  | succ width ih =>
    rw [binaryDigits, binaryDigits, same width (Nat.lt_succ_self _),
      ih fun i below => same i (by omega)]

/-- Below `2 ** width`, digits with no one are those of zero. -/
theorem true_not_mem_binaryDigits_iff {width value : Nat} (fits : value < 2 ^ width) :
    true ∉ binaryDigits width value ↔ value = 0 := by
  rw [mem_binaryDigits]
  constructor
  · intro none
    refine Nat.eq_of_testBit_eq fun i => ?_
    rw [Nat.zero_testBit]
    by_cases low : i < width
    · simpa using fun bit => none ⟨i, low, bit⟩
    · exact Nat.testBit_lt_two_pow (lt_of_lt_of_le fits (Nat.pow_le_pow_right (by decide) (by omega)))
  · rintro rfl ⟨i, -, bit⟩
    simp at bit

theorem binaryDigits_succ_of_lt {width value : Nat} (fits : value < 2 ^ width) :
    binaryDigits (width + 1) value = false :: binaryDigits width value := by
  rw [binaryDigits, Nat.testBit_lt_two_pow fits]

theorem binaryDigits_two_pow_add {width value : Nat} (fits : value < 2 ^ width) :
    binaryDigits (width + 1) (2 ^ width + value) = true :: binaryDigits width value := by
  rw [binaryDigits, Nat.testBit_two_pow_add_eq, Nat.testBit_lt_two_pow fits, Bool.not_false,
    binaryDigits_congr fun i below => Nat.testBit_two_pow_add_gt below value]

/-- A run of `bits + 1` ones in `width + 1` digits is a one above a run of `bits` ones. -/
theorem two_pow_succ_sub_two_pow (width bits : Nat) :
    2 ^ (width + 1) - 2 ^ (width - bits) = 2 ^ width + (2 ^ width - 2 ^ (width - bits)) := by
  have smaller := Nat.pow_le_pow_right (by decide : 0 < 2) (Nat.sub_le width bits)
  rw [Nat.pow_succ]
  omega

/-- The digits of `bits` leading ones in `width` digits. -/
theorem binaryDigits_ones_zeros : ∀ {width bits : Nat}, bits ≤ width →
    binaryDigits width (2 ^ width - 2 ^ (width - bits)) =
      List.replicate bits true ++ List.replicate (width - bits) false
  | 0, 0, _ => rfl
  | width + 1, 0, _ => by
    have zeros : ∀ k, binaryDigits k 0 = List.replicate k false := fun k => by
      induction k with
      | zero => rfl
      | succ k ih => rw [binaryDigits, Nat.zero_testBit, ih, List.replicate_succ]
    rw [Nat.sub_zero, Nat.sub_self, zeros, List.replicate_zero, List.nil_append]
  | width + 1, bits + 1, le => by
    have ones := Nat.sub_lt (Nat.two_pow_pos width) (Nat.two_pow_pos (width - bits))
    rw [Nat.add_sub_add_right, two_pow_succ_sub_two_pow width bits, binaryDigits_two_pow_add ones,
      binaryDigits_ones_zeros (by omega), List.replicate_succ, List.cons_append]

/-- `_validate_bits` accepts exactly the masks made of ones followed by zeros. -/
theorem validateDigits_binaryDigits_iff : ∀ {width value : Nat}, value < 2 ^ width →
    (validateDigits (binaryDigits width value) = true ↔
      ∃ bits ≤ width, value = 2 ^ width - 2 ^ (width - bits))
  | 0, value, fits => by
    have zero : value = 0 := by simpa using fits
    subst zero
    exact ⟨fun _ => ⟨0, le_refl 0, rfl⟩, fun _ => rfl⟩
  | width + 1, value, fits => by
    rcases Nat.lt_or_ge value (2 ^ width) with low | high
    · rw [binaryDigits_succ_of_lt low, validateDigits_cons_false, decide_eq_true_eq,
        true_not_mem_binaryDigits_iff low]
      constructor
      · rintro rfl
        exact ⟨0, Nat.zero_le _, by simp⟩
      · rintro ⟨_ | bits, le, rfl⟩
        · simp
        · rw [Nat.add_sub_add_right, two_pow_succ_sub_two_pow width bits] at low
          omega
    · obtain ⟨rest, rfl⟩ : ∃ rest, value = 2 ^ width + rest := ⟨value - 2 ^ width, by omega⟩
      have restFits : rest < 2 ^ width := by
        rw [Nat.pow_succ] at fits
        omega
      rw [binaryDigits_two_pow_add restFits, validateDigits_cons_true,
        validateDigits_binaryDigits_iff restFits]
      constructor
      · rintro ⟨bits, le, rfl⟩
        exact ⟨bits + 1, by omega, by rw [Nat.add_sub_add_right, two_pow_succ_sub_two_pow width bits]⟩
      · rintro ⟨_ | bits, le, value⟩
        · rw [Nat.sub_zero, Nat.sub_self] at value
          omega
        · rw [Nat.add_sub_add_right, two_pow_succ_sub_two_pow width bits] at value
          exact ⟨bits, by omega, by omega⟩

theorem validateDigits_ones_zeros (ones zeros : Nat) :
    validateDigits (List.replicate ones true ++ List.replicate zeros false) = true := by
  induction ones with
  | zero => cases zeros <;> simp [List.replicate_succ]
  | succ ones ih => rw [List.replicate_succ, List.cons_append, validateDigits_cons_true, ih]

/-- `_validate_bits` accepts exactly the digit strings of ones followed by zeros. -/
theorem validateDigits_binaryDigits_iff_ones_zeros {width value : Nat} (fits : value < 2 ^ width) :
    validateDigits (binaryDigits width value) = true ↔
      ∃ k ≤ width, binaryDigits width value = List.replicate k true ++ List.replicate (width - k) false := by
  constructor
  · intro valid
    obtain ⟨k, le, rfl⟩ := (validateDigits_binaryDigits_iff fits).mp valid
    exact ⟨k, le, binaryDigits_ones_zeros le⟩
  · rintro ⟨k, -, digits⟩
    rw [digits]
    exact validateDigits_ones_zeros k (width - k)

/-- The integer `int(digits, 2)` of binary digits, most significant first. -/
def bitsValue (digits : List Bool) : Nat := digits.foldl (fun acc digit => 2 * acc + digit.toNat) 0

theorem bitsValue_append (front back : List Bool) :
    bitsValue (front ++ back) = bitsValue front * 2 ^ back.length + bitsValue back := by
  have shift : ∀ (acc : Nat) (digits : List Bool),
      digits.foldl (fun acc digit => 2 * acc + digit.toNat) acc =
        acc * 2 ^ digits.length + bitsValue digits := by
    intro acc digits
    induction digits generalizing acc with
    | nil => simp [bitsValue]
    | cons digit rest ih =>
      have head : bitsValue (digit :: rest) = (2 * 0 + digit.toNat) * 2 ^ rest.length + bitsValue rest :=
        ih _
      rw [List.foldl_cons, ih, head, List.length_cons, Nat.pow_succ]
      ring
  simp only [bitsValue, List.foldl_append]
  exact shift _ back

/-- `int("1" * bit_count + "0" * (128 - bit_count), 2)` is the mask of `bit_count` leading ones. -/
theorem bitsValue_ones_zeros (ones zeros : Nat) :
    bitsValue (List.replicate ones true ++ List.replicate zeros false) =
      2 ^ (ones + zeros) - 2 ^ zeros := by
  have allOnes : ∀ k, bitsValue (List.replicate k true) = 2 ^ k - 1 := by
    intro k
    induction k with
    | zero => rfl
    | succ k ih =>
      have one : bitsValue [true] = 1 := rfl
      have positive := @Nat.one_le_two_pow k
      rw [List.replicate_succ', bitsValue_append, ih, one, List.length_singleton, Nat.pow_one,
        Nat.pow_succ]
      generalize 2 ^ k = power at positive ⊢
      omega
  have allZeros : ∀ k, bitsValue (List.replicate k false) = 0 := by
    intro k
    induction k with
    | zero => rfl
    | succ k ih => rw [List.replicate_succ', bitsValue_append, ih]; rfl
  rw [bitsValue_append, allOnes, allZeros, List.length_replicate, Nat.add_zero, Nat.sub_mul,
    Nat.one_mul, ← Nat.pow_add]

/-- Masking with the ones of `2 ^ n - 2 ^ z` rounds a value below `2 ^ n` down to a multiple of
`2 ^ z`. -/
theorem and_two_pow_sub_two_pow {x n z : Nat} (fits : x < 2 ^ n) (le : z ≤ n) :
    x &&& (2 ^ n - 2 ^ z) = 2 ^ z * (x / 2 ^ z) := by
  have below : 2 ^ z - 1 < 2 ^ n :=
    lt_of_lt_of_le (Nat.sub_lt (Nat.two_pow_pos z) Nat.one_pos) (Nat.pow_le_pow_right (by decide) le)
  have mask : 2 ^ n - 2 ^ z = 2 ^ n - (2 ^ z - 1 + 1) := by rw [Nat.sub_add_cancel Nat.one_le_two_pow]
  apply Nat.eq_of_testBit_eq
  intro i
  rw [mask, Nat.testBit_and, Nat.testBit_two_pow_sub_succ below, Nat.testBit_two_pow_sub_one,
    Nat.testBit_mul_pow_two, ← Nat.shiftRight_eq_div_pow, Nat.testBit_shiftRight]
  by_cases low : i < z
  · simp [low]
  have high : z ≤ i := not_lt.mp low
  by_cases inside : i < n
  · simp [low, high, inside, Nat.add_sub_cancel' high]
  · have outside : x < 2 ^ i := lt_of_lt_of_le fits (Nat.pow_le_pow_right (by decide) (not_lt.mp inside))
    simp [low, high, inside, Nat.add_sub_cancel' high, Nat.testBit_lt_two_pow outside]

namespace Ip6Mask

/-- `Ip6Mask(mask)` for an `int`: in `range(2 ** 128)` and passing `_validate_bits`, else
`Ip6MaskFormatError`. -/
def ofInt (mask : Int) : Option Ip6Mask :=
  if valid : 0 ≤ mask ∧ mask < 340282366920938463463374607431768211456 ∧
      validateDigits (binaryDigits 128 mask.toNat) = true then
    have fits : mask.toNat < 2 ^ 128 := by rw [Nat.pow_succ]; omega
    some ⟨mask.toNat, fits, (validateDigits_binaryDigits_iff fits).mp valid.2.2⟩
  else none

/-- `Ip6Mask(mask)` for 16 bytes: their value, if it passes `_validate_bits`. -/
def ofBytes (mask : List UInt8) : Option Ip6Mask :=
  if valid : mask.length = 16 ∧ validateDigits (binaryDigits 128 (unpackLLLL mask)) = true then
    some ⟨unpackLLLL mask, unpackLLLL_lt mask,
      (validateDigits_binaryDigits_iff (unpackLLLL_lt mask)).mp valid.2⟩
  else none

/-- `Ip6Mask("/n")` once the text has matched `^\/\d{1,3}$`, with `n` the `bit_count`: a count
in `range(129)` gives `int("1" * bit_count + "0" * (128 - bit_count), 2)`. -/
def ofBitCount (bitCount : Nat) : Option Ip6Mask :=
  if valid : bitCount < 129 then
    have value : bitsValue (List.replicate bitCount true ++ List.replicate (128 - bitCount) false) =
        2 ^ 128 - 2 ^ (128 - bitCount) := by
      rw [bitsValue_ones_zeros, show bitCount + (128 - bitCount) = 128 by omega]
    have fits : 2 ^ 128 - 2 ^ (128 - bitCount) < 2 ^ 128 :=
      Nat.sub_lt (Nat.two_pow_pos _) (Nat.two_pow_pos _)
    some ⟨bitsValue (List.replicate bitCount true ++ List.replicate (128 - bitCount) false),
      value ▸ fits, ⟨bitCount, by omega, value⟩⟩
  else none

/-- `__bytes__`: the four 32-bit words of `_mask`. -/
def toBytes (mask : Ip6Mask) : Option (List UInt8) := packLLLL mask.toNat

/-- Modelled from the spec: `len(mask)` (`IpMask.__len__`, lib/ip_address.py is absent), the
number of ones of the mask. -/
def len (mask : Ip6Mask) : Nat := (binaryDigits 128 mask.toNat).count true

theorem ext {a b : Ip6Mask} (same : a.toNat = b.toNat) : a = b := by
  cases a; cases b; cases same; rfl

theorem len_eq {mask : Ip6Mask} {bits : Nat} (le : bits ≤ 128)
    (value : mask.toNat = 2 ^ 128 - 2 ^ (128 - bits)) : mask.len = bits := by
  rw [len, value, binaryDigits_ones_zeros le, List.count_append, List.count_replicate_self,
    List.count_replicate]
  simp

/-- A mask holds `len(mask)` ones above `128 - len(mask)` zeros. -/
theorem toNat_eq_len (mask : Ip6Mask) :
    mask.len ≤ 128 ∧ mask.toNat = 2 ^ 128 - 2 ^ (128 - mask.len) := by
  obtain ⟨bits, le, value⟩ := mask.contiguous
  rw [len_eq le value]
  exact ⟨le, value⟩

/-- Two masks of one length are one mask. -/
theorem eq_of_len_eq {a b : Ip6Mask} (same : a.len = b.len) : a = b :=
  ext (by rw [a.toNat_eq_len.2, b.toNat_eq_len.2, same])

/-- `len(Ip6Mask(f"/{n}")) == n`. -/
theorem len_ofBitCount {bitCount : Nat} (valid : bitCount ≤ 128) :
    (ofBitCount bitCount).map len = some bitCount := by
  rw [ofBitCount, dif_pos (Nat.lt_succ_of_le valid), Option.map_some', Option.some.injEq]
  refine len_eq valid ?_
  show bitsValue _ = _
  rw [bitsValue_ones_zeros, Nat.add_sub_cancel' valid]

/-- `int(address) & int(mask)` rounds the address down to a multiple of
`2 ** (128 - len(mask))`. -/
theorem and_toNat (mask : Ip6Mask) {value : Nat} (fits : value < 2 ^ 128) :
    value &&& mask.toNat = 2 ^ (128 - mask.len) * (value / 2 ^ (128 - mask.len)) := by
  rw [mask.toNat_eq_len.2]
  exact and_two_pow_sub_two_pow fits (Nat.sub_le _ _)

theorem ofInt_isSome_iff (mask : Int) : (ofInt mask).isSome ↔ 0 ≤ mask ∧ mask < 2 ^ 128 ∧
    ∃ k ≤ 128, binaryDigits 128 mask.toNat =
      List.replicate k true ++ List.replicate (128 - k) false := by
  have top : (2 : Int) ^ 128 = 340282366920938463463374607431768211456 := by norm_num
  rw [top, ofInt]
  split_ifs with valid
  · have fits : mask.toNat < 2 ^ 128 := by rw [Nat.pow_succ]; omega
    exact iff_of_true rfl ⟨valid.1, valid.2.1,
      (validateDigits_binaryDigits_iff_ones_zeros fits).mp valid.2.2⟩
  · refine iff_of_false (by simp) fun ⟨nonneg, below, digits⟩ => valid ⟨nonneg, below, ?_⟩
    have fits : mask.toNat < 2 ^ 128 := by rw [Nat.pow_succ]; omega
    exact (validateDigits_binaryDigits_iff_ones_zeros fits).mpr digits

theorem ofBytes_isSome_iff {mask : List UInt8} (length : mask.length = 16) :
    (ofBytes mask).isSome ↔ ∃ k ≤ 128, binaryDigits 128 (bigEndian mask) =
      List.replicate k true ++ List.replicate (128 - k) false := by
  rw [ofBytes, ← unpackLLLL_eq length,
    ← validateDigits_binaryDigits_iff_ones_zeros (unpackLLLL_lt mask)]
  split_ifs with valid
  · exact iff_of_true rfl valid.2
  · exact iff_of_false (by simp) fun digits => valid ⟨length, digits⟩

end Ip6Mask

namespace Ip6Network

/-- `Ip6Network((address, mask))`: the mask, and the address `Ip6Address(int(address) &
int(mask))`, whose constructor raises `Ip6AddressFormatError` when that is all ones. -/
def ofAddressMask (address : Ip6Address) (mask : Ip6Mask) : Option Ip6Network :=
  (Ip6Address.ofInt (address.toNat &&& mask.toNat : Nat)).pbind fun masked parsed =>
    have value := ((Ip6Address.ofInt_natCast_eq_some_iff _ masked).mp parsed).2
    some ⟨masked, mask, by rw [value, Nat.and_assoc, Nat.and_self]⟩

/-- `Ip6Network(network)` for an `Ip6Network`: its mask, and `Ip6Address(int(network.address) &
int(network.mask))`, the tuple form's computation. -/
def ofNetwork (network : Ip6Network) : Option Ip6Network :=
  ofAddressMask network.address network.mask

/-- `last`: `Ip6Address(int(self._address) + (~int(self._mask) & 0xFFFF...FFFF))`, where the
complement of the mask within 128 bits is `2 ** 128 - 1 - mask`; the constructor raises
`Ip6AddressFormatError` when the sum is all ones. -/
def last (network : Ip6Network) : Option Ip6Address :=
  Ip6Address.ofInt (network.address.toNat + (0xFFFFFFFFFFFFFFFFFFFFFFFFFFFFFFFF - network.mask.toNat) : Nat)

/-- The address of a network is a multiple of the number of addresses it spans. -/
theorem address_eq (network : Ip6Network) :
    network.address.toNat =
      2 ^ (128 - network.mask.len) * (network.address.toNat / 2 ^ (128 - network.mask.len)) := by
  conv_lhs => rw [← network.masked]
  exact network.mask.and_toNat network.address.toNat_lt

/-- The `2 ** (128 - len(mask))` addresses from the network's own are all below `2 ** 128`. -/
theorem address_add_le (network : Ip6Network) :
    network.address.toNat + 2 ^ (128 - network.mask.len) ≤ 2 ^ 128 := by
  have whole : 2 ^ 128 = 2 ^ (128 - network.mask.len) * 2 ^ network.mask.len := by
    rw [← Nat.pow_add, Nat.sub_add_cancel network.mask.toNat_eq_len.1]
  have fits := network.address.toNat_lt
  rw [network.address_eq, whole] at fits ⊢
  have prefixFits := Nat.lt_of_mul_lt_mul_left fits
  calc _ = 2 ^ (128 - network.mask.len) * (network.address.toNat / 2 ^ (128 - network.mask.len) + 1) :=
        by rw [Nat.mul_add_one]
    _ ≤ _ := Nat.mul_le_mul_left _ prefixFits

/-- A network contains exactly the `2 ** (128 - len(mask))` addresses from its own. -/
theorem contains_iff (network : Ip6Network) (a : Ip6Address) :
    network.contains a = true ↔ network.address.toNat ≤ a.toNat ∧
      a.toNat < network.address.toNat + 2 ^ (128 - network.mask.len) := by
  have positive := Nat.two_pow_pos (128 - network.mask.len)
  rw [contains, beq_iff_eq, network.mask.and_toNat a.toNat_lt, network.address_eq]
  generalize 2 ^ (128 - network.mask.len) = size at *
  generalize network.address.toNat / size = first
  constructor
  · intro same
    have split := Nat.div_add_mod a.toNat size
    have rest := Nat.mod_lt a.toNat positive
    omega
  · rintro ⟨above, below⟩
    rw [Nat.div_eq_of_lt_le (by rwa [Nat.mul_comm]) (by rwa [Nat.succ_mul, Nat.mul_comm])]

/-- What `Ip6Network((address, mask))` builds, and when it raises. -/
theorem ofAddressMask_eq_some_iff (address : Ip6Address) (mask : Ip6Mask) (network : Ip6Network) :
    ofAddressMask address mask = some network ↔ address.toNat &&& mask.toNat < 2 ^ 128 - 1 ∧
      network.address.toNat = address.toNat &&& mask.toNat ∧ network.mask = mask := by
  rw [ofAddressMask, Option.pbind_eq_some_iff]
  constructor
  · rintro ⟨masked, parsed, ⟨⟩⟩
    obtain ⟨fits, value⟩ := (Ip6Address.ofInt_natCast_eq_some_iff _ masked).mp parsed
    exact ⟨fits, value, rfl⟩
  · rintro ⟨fits, value, rfl⟩
    exact ⟨network.address, (Ip6Address.ofInt_natCast_eq_some_iff _ _).mpr ⟨fits, value⟩, rfl⟩

theorem ofAddressMask_eq_none_iff (address : Ip6Address) (mask : Ip6Mask) :
    ofAddressMask address mask = none ↔ 2 ^ 128 - 1 ≤ address.toNat &&& mask.toNat := by
  rw [ofAddressMask, Option.pbind_eq_none_iff, ← Ip6Address.ofInt_natCast_eq_none_iff]
  exact or_iff_left fun ⟨_, _, built⟩ => Option.noConfusion built

/-- `Ip6Network((address, mask))` contains its address and keeps its mask. -/
theorem contains_ofAddressMask {address : Ip6Address} {mask : Ip6Mask} {network : Ip6Network}
    (built : ofAddressMask address mask = some network) :
    network.mask = mask ∧ network.contains address = true := by
  obtain ⟨-, value, rfl⟩ := (ofAddressMask_eq_some_iff address mask network).mp built
  exact ⟨rfl, by rw [contains, value, beq_self_eq_true]⟩

/-- `~int(mask) & 0xFFFF...FFFF` is the number of addresses of the network less one. -/
theorem complement_eq (network : Ip6Network) :
    0xFFFFFFFFFFFFFFFFFFFFFFFFFFFFFFFF - network.mask.toNat = 2 ^ (128 - network.mask.len) - 1 := by
  have smaller := Nat.pow_le_pow_right (by decide : 0 < 2) (Nat.sub_le 128 network.mask.len)
  rw [network.mask.toNat_eq_len.2]
  omega

/-- `last` raises exactly for the networks whose addresses run up to the all-ones address. -/
theorem last_eq_none_iff (network : Ip6Network) :
    network.last = none ↔ network.address.toNat + 2 ^ (128 - network.mask.len) = 2 ^ 128 := by
  have fits := network.address_add_le
  have positive := Nat.two_pow_pos (128 - network.mask.len)
  rw [last, complement_eq, Ip6Address.ofInt_natCast_eq_none_iff]
  generalize 2 ^ (128 - network.mask.len) = size at *
  omega

/-- Otherwise `last` is the greatest address the network contains. -/
theorem last_greatest (network : Ip6Network) {top : Ip6Address} (found : network.last = some top) :
    network.contains top = true ∧ ∀ a, network.contains a = true → a.toNat ≤ top.toNat := by
  have positive := Nat.two_pow_pos (128 - network.mask.len)
  rw [last, complement_eq, Ip6Address.ofInt_natCast_eq_some_iff] at found
  simp only [contains_iff]
  generalize 2 ^ (128 - network.mask.len) = size at *
  exact ⟨by omega, fun a _ => by omega⟩

/-- The network `::/128` holds the one address `::`, which is its `last`. -/
theorem last_greatest_single :
    ∃ (network : Ip6Network) (top : Ip6Address), network.last = some top ∧
      network.contains top = true ∧ ∀ a, network.contains a = true → a.toNat ≤ top.toNat := by
  obtain ⟨host, -, full⟩ := Option.map_eq_some'.mp (Ip6Mask.len_ofBitCount (le_refl 128))
  let network : Ip6Network := ⟨Ip6Address.unspecified, host, Nat.zero_and _⟩
  have found : network.last = some Ip6Address.unspecified := by
    rw [last, complement_eq, Ip6Address.ofInt_natCast_eq_some_iff]
    show 0 + (2 ^ (128 - host.len) - 1) < 2 ^ 128 - 1 ∧ 0 = 0 + (2 ^ (128 - host.len) - 1)
    rw [full, Nat.sub_self, Nat.pow_zero]
    exact ⟨by norm_num, rfl⟩
  exact ⟨network, _, found, last_greatest network found⟩

/-- The copy of a network is the network itself, unless its address is all ones. -/
theorem ofNetwork_eq_some (network : Ip6Network) (fits : network.address.toNat < 2 ^ 128 - 1) :
    ofNetwork network = some network := by
  rw [ofNetwork, ofAddressMask_eq_some_iff, network.masked]
  exact ⟨fits, rfl, rfl⟩

/-- Two networks that reach the all-ones address: `Ip6Network((::, Ip6Mask("/0")))` is built
but its `last` raises, and `Ip6Network((ffff:...:ffff, Ip6Mask("/128")))` raises. -/
theorem network_top_address_raises :
    (∃ mask network, Ip6Mask.ofBitCount 0 = some mask ∧
      ofAddressMask Ip6Address.unspecified mask = some network ∧ network.last = none) ∧
    ∃ address mask, Ip6Address.ofBytes (List.replicate 16 0xff) = some address ∧
      Ip6Mask.ofBitCount 128 = some mask ∧ ofAddressMask address mask = none := by
  obtain ⟨everything, whole, empty⟩ := Option.map_eq_some'.mp (Ip6Mask.len_ofBitCount (by decide : 0 ≤ 128))
  obtain ⟨host, single, full⟩ := Option.map_eq_some'.mp (Ip6Mask.len_ofBitCount (le_refl 128))
  have zero : everything.toNat = 0 := by rw [everything.toNat_eq_len.2, empty]; rfl
  have ones : host.toNat = 2 ^ 128 - 1 := by rw [host.toNat_eq_len.2, full]; rfl
  let network : Ip6Network := ⟨Ip6Address.unspecified, everything, Nat.zero_and _⟩
  refine ⟨⟨everything, network, whole, ?_, ?_⟩, ?_⟩
  · rw [ofAddressMask_eq_some_iff]
    exact ⟨by rw [zero, Nat.and_zero]; decide, by rw [zero, Nat.and_zero]; rfl, rfl⟩
  · rw [last_eq_none_iff, empty, Nat.sub_zero]
    exact Nat.zero_add _
  · refine ⟨_, host, Ip6Address.ofBytes_eq_ofBytes16 (List.length_replicate 16 0xff), single, ?_⟩
    rw [ofAddressMask_eq_none_iff, ones, Ip6Address.toNat_ofBytes16]
    exact le_of_eq (by rfl)

end Ip6Network

namespace Ip6Host

/-- `Ip6Host((address, network))`. -/
def ofAddressNetwork (address : Ip6Address) (network : Ip6Network) : Ip6Host :=
  ⟨address, network, none⟩

/-- `Ip6Host((address, mask))`: the address, and `Ip6Network((address, mask))`. -/
def ofAddressMask (address : Ip6Address) (mask : Ip6Mask) : Option Ip6Host :=
  (Ip6Network.ofAddressMask address mask).map (ofAddressNetwork address)

end Ip6Host

namespace Ip6Network

/-- `interface_id` of `eui64`: the MAC's upper 24 bits with the universal/local bit inverted,
`0xFFFE`, and its lower 24 bits. -/
def interfaceId (macAddress : MacAddress) : Nat :=
  (((macAddress.toNat &&& 0xFFFFFF000000) <<< 16) ||| (macAddress.toNat &&& 0xFFFFFF) |||
    0xFFFE000000) ^^^ 0x0200000000000000

/-- `eui64(mac_address)`: `none` for the `AssertionError` of a mask other than `/64`; else the
host of `Ip6Address(int(self._address) | interface_id)` and `Ip6Mask("/64")`. -/
def eui64 (network : Ip6Network) (macAddress : MacAddress) : Option Ip6Host :=
  if network.mask.len = 64 then do
    let address ← Ip6Address.ofInt (network.address.toNat ||| interfaceId macAddress : Nat)
    let mask ← Ip6Mask.ofBitCount 64
    Ip6Host.ofAddressMask address mask
  else none

theorem testBit_interfaceId (macAddress : MacAddress) (i : Nat) :
    (interfaceId macAddress).testBit i =
      if i < 24 then macAddress.toNat.testBit i
      else if i < 40 then decide (25 ≤ i)
      else (macAddress.toNat.testBit (i - 16) && decide (i < 64)) ^^ decide (i = 57) := by
  have low : (0xFFFFFF : Nat) = 2 ^ 24 - 1 := rfl
  have upper : (0xFFFFFF000000 : Nat) = 2 ^ 48 - (2 ^ 24 - 1 + 1) := rfl
  have filler : (0xFFFE000000 : Nat) = 2 ^ 40 - (2 ^ 25 - 1 + 1) := rfl
  have flip : (0x0200000000000000 : Nat) = 2 ^ 57 := rfl
  rw [interfaceId, low, upper, filler, flip]
  simp only [Nat.testBit_xor, Nat.testBit_or, Nat.testBit_and, Nat.testBit_shiftLeft,
    Nat.testBit_two_pow_sub_succ (by decide : 2 ^ 24 - 1 < 2 ^ 48),
    Nat.testBit_two_pow_sub_succ (by decide : 2 ^ 25 - 1 < 2 ^ 40), Nat.testBit_two_pow_sub_one,
    Nat.testBit_two_pow]
  by_cases first : i < 24
  · simp [first, show i < 25 by omega, show i < 40 by omega, show i - 16 < 24 by omega,
      show 57 ≠ i by omega]
  by_cases filled : i < 40
  · simp [first, filled, show i - 16 < 24 by omega, show 57 ≠ i by omega, ← decide_not]
  · simp [first, filled, show 16 ≤ i by omega, show ¬ i - 16 < 24 by omega, show ¬ i < 25 by omega,
      show i - 16 < 48 ↔ i < 64 by omega, eq_comm]

/-- The interface id fills the low 64 bits, and never all of them: bit 24 is the low bit of
`0xFFFE`. -/
theorem interfaceId_lt (macAddress : MacAddress) : interfaceId macAddress < 2 ^ 64 - 1 := by
  have below : interfaceId macAddress < 2 ^ 64 := Nat.lt_pow_two_of_testBit _ fun i above => by
    rw [testBit_interfaceId]
    simp [show ¬ i < 24 by omega, show ¬ i < 40 by omega, show ¬ i < 64 by omega,
      show i ≠ 57 by omega]
  have gap : (interfaceId macAddress).testBit 24 = false := by
    rw [testBit_interfaceId]
    rfl
  refine lt_of_le_of_ne (Nat.le_sub_one_of_lt below) fun ones => ?_
  rw [ones, Nat.testBit_two_pow_sub_one] at gap
  exact absurd gap (by decide)

theorem interfaceId_lt_two_pow (macAddress : MacAddress) : interfaceId macAddress < 2 ^ 64 := by
  have := interfaceId_lt macAddress
  omega

/-- A `/64` network's address is a multiple of `2 ** 64`. -/
theorem address_eq_of_prefix64 {network : Ip6Network} (prefix64 : network.mask.len = 64) :
    network.address.toNat = 2 ^ 64 * (network.address.toNat / 2 ^ 64) := by
  have aligned := network.address_eq
  rwa [prefix64, show 128 - 64 = 64 from rfl] at aligned

/-- The interface id field by field: the MAC's upper 24 bits with bit `0x02` of the first octet
inverted, `0xFFFE`, and the MAC's lower 24 bits. -/
theorem interfaceId_eq (macAddress : MacAddress) :
    interfaceId macAddress = ((macAddress.toNat / 2 ^ 24) ^^^ 0x020000) * 2 ^ 40 +
      0xFFFE * 2 ^ 24 + macAddress.toNat % 2 ^ 24 := by
  have low := Nat.mod_lt macAddress.toNat (Nat.two_pow_pos 24)
  have middle : 2 ^ 24 * 0xFFFE + macAddress.toNat % 2 ^ 24 < 2 ^ 40 := by omega
  have filler : (0xFFFE : Nat) = 2 ^ 16 - (2 ^ 0 + 1) := rfl
  have flip : (0x020000 : Nat) = 2 ^ 17 := rfl
  rw [show ∀ a b c : Nat, a * 2 ^ 40 + b * 2 ^ 24 + c = 2 ^ 40 * a + (2 ^ 24 * b + c) from
    fun a b c => by ring]
  apply Nat.eq_of_testBit_eq
  intro i
  rw [testBit_interfaceId, Nat.testBit_mul_pow_two_add _ middle, Nat.testBit_mul_pow_two_add _ low,
    Nat.testBit_mod_two_pow, Nat.testBit_xor, ← Nat.shiftRight_eq_div_pow, Nat.testBit_shiftRight,
    filler, flip, Nat.testBit_two_pow_sub_succ (by decide), Nat.testBit_two_pow, Nat.testBit_two_pow]
  by_cases first : i < 24
  · simp [first, show i < 40 by omega]
  by_cases filled : i < 40
  · simp [first, filled, show i - 24 < 16 by omega, show 25 ≤ i ↔ ¬ 0 = i - 24 by omega]
  have shifted : 24 + (i - 40) = i - 16 := by omega
  by_cases inside : i < 64
  · simp [first, filled, inside, shifted, show i = 57 ↔ 17 = i - 40 by omega]
  · have outside : macAddress.toNat < 2 ^ (i - 16) :=
      lt_of_lt_of_le macAddress.toNat_lt (Nat.pow_le_pow_right (by decide) (by omega))
    simp [first, filled, inside, shifted, Nat.testBit_lt_two_pow outside,
      show i ≠ 57 by omega, show 17 ≠ i - 40 by omega]

/-- Distinct MACs have distinct interface ids. -/
theorem interfaceId_injective : Function.Injective interfaceId := by
  intro a b same
  have bit : ∀ i, (interfaceId a).testBit i = (interfaceId b).testBit i := fun i => by rw [same]
  cases a with | mk a aFits =>
  cases b with | mk b bFits =>
  congr
  apply Nat.eq_of_testBit_eq
  intro i
  by_cases low : i < 24
  · simpa [testBit_interfaceId, low] using bit i
  by_cases high : i < 48
  · simpa [testBit_interfaceId, show ¬ i + 16 < 24 by omega, show ¬ i + 16 < 40 by omega,
      show i + 16 < 64 by omega] using bit (i + 16)
  · have outside : 2 ^ 48 ≤ 2 ^ i := Nat.pow_le_pow_right (by decide) (by omega)
    rw [Nat.testBit_lt_two_pow (lt_of_lt_of_le aFits outside),
      Nat.testBit_lt_two_pow (lt_of_lt_of_le bFits outside)]

/-- On a `/64` network `eui64` never raises: it builds the host whose address is the network's
with the interface id in the low 64 bits, on the network itself, with no gateway. -/
theorem eui64_eq_some (network : Ip6Network) (macAddress : MacAddress)
    (prefix64 : network.mask.len = 64) :
    ∃ host, network.eui64 macAddress = some host ∧ host.network = network ∧
      host.gateway = none ∧ host.address.toNat = network.address.toNat + interfaceId macAddress := by
  have aligned := address_eq_of_prefix64 prefix64
  have fits := network.address_add_le
  rw [prefix64, show 128 - 64 = 64 from rfl] at fits
  have idFits := interfaceId_lt macAddress
  have joined : network.address.toNat ||| interfaceId macAddress =
      network.address.toNat + interfaceId macAddress := by
    rw [aligned]
    exact (Nat.mul_add_lt_is_or (by omega) _).symm
  let address : Ip6Address := ⟨network.address.toNat + interfaceId macAddress, by omega⟩
  have parsed : Ip6Address.ofInt (network.address.toNat ||| interfaceId macAddress : Nat) =
      some address :=
    (Ip6Address.ofInt_natCast_eq_some_iff _ _).mpr ⟨by omega, joined.symm⟩
  obtain ⟨mask, mask64, length⟩ :=
    Option.map_eq_some'.mp (Ip6Mask.len_ofBitCount (by decide : 64 ≤ 128))
  have masked : address.toNat &&& mask.toNat = network.address.toNat := by
    rw [mask.and_toNat address.toNat_lt, length]
    show 2 ^ 64 * ((network.address.toNat + interfaceId macAddress) / 2 ^ 64) = _
    rw [aligned, Nat.mul_add_div (Nat.two_pow_pos 64),
      Nat.div_eq_of_lt (interfaceId_lt_two_pow macAddress), Nat.add_zero]
  have built : ofAddressMask address mask = some network :=
    (ofAddressMask_eq_some_iff _ _ _).mpr
      ⟨by omega, masked.symm, Ip6Mask.eq_of_len_eq (prefix64.trans length.symm)⟩
  refine ⟨⟨address, network, none⟩, ?_, rfl, rfl, rfl⟩
  rw [eui64, if_pos prefix64]
  show (Ip6Address.ofInt _).bind (fun address => (Ip6Mask.ofBitCount 64).bind fun mask =>
    Ip6Host.ofAddressMask address mask) = _
  rw [parsed, Option.some_bind, mask64, Option.some_bind, Ip6Host.ofAddressMask, built,
    Option.map_some']
  rfl

theorem of_eui64_eq_some {network : Ip6Network} {macAddress : MacAddress} {host : Ip6Host}
    (built : network.eui64 macAddress = some host) : network.mask.len = 64 ∧
      host.network = network ∧ host.address.toNat = network.address.toNat + interfaceId macAddress := by
  have prefix64 : network.mask.len = 64 := by
    by_contra other
    rw [eui64, if_neg other] at built
    cases built
  obtain ⟨found, lookup, sameNetwork, -, value⟩ := eui64_eq_some network macAddress prefix64
  cases built.symm.trans lookup
  exact ⟨prefix64, sameNetwork, value⟩

/-- The low 64 bits of the host `eui64` builds are the interface id. -/
theorem mod_of_eui64_eq_some {network : Ip6Network} {macAddress : MacAddress} {host : Ip6Host}
    (built : network.eui64 macAddress = some host) :
    host.address.toNat % 2 ^ 64 = interfaceId macAddress := by
  obtain ⟨prefix64, -, value⟩ := of_eui64_eq_some built
  rw [value, address_eq_of_prefix64 prefix64, Nat.mul_add_mod,
    Nat.mod_eq_of_lt (interfaceId_lt_two_pow macAddress)]

/-- The upper 64 bits of the host `eui64` builds are the network's. -/
theorem div_of_eui64_eq_some {network : Ip6Network} {macAddress : MacAddress} {host : Ip6Host}
    (built : network.eui64 macAddress = some host) :
    host.address.toNat / 2 ^ 64 = network.address.toNat / 2 ^ 64 := by
  obtain ⟨prefix64, -, value⟩ := of_eui64_eq_some built
  rw [value, address_eq_of_prefix64 prefix64, Nat.mul_add_div (Nat.two_pow_pos 64),
    Nat.div_eq_of_lt (interfaceId_lt_two_pow macAddress), Nat.add_zero,
    Nat.mul_div_cancel_left _ (Nat.two_pow_pos 64)]

/-- The host `eui64` builds lies in the network. -/
theorem contains_eui64 {network : Ip6Network} {macAddress : MacAddress} {host : Ip6Host}
    (built : network.eui64 macAddress = some host) : network.contains host.address = true := by
  obtain ⟨prefix64, -, value⟩ := of_eui64_eq_some built
  have idFits := interfaceId_lt macAddress
  rw [contains_iff, prefix64, value]
  omega

/-- Two MACs never get one address from `eui64` on a network. -/
theorem eui64_injective (network : Ip6Network) {first second : MacAddress}
    {firstHost secondHost : Ip6Host} (builtFirst : network.eui64 first = some firstHost)
    (builtSecond : network.eui64 second = some secondHost)
    (same : firstHost.address = secondHost.address) : first = second := by
  have firstValue := (of_eui64_eq_some builtFirst).2.2
  have secondValue := (of_eui64_eq_some builtSecond).2.2
  rw [same, secondValue] at firstValue
  exact interfaceId_injective (Nat.add_left_cancel firstValue).symm

/-- On a `/64` network `eui64` builds, for every MAC, a host on that network whose address is the
network's upper 64 bits above the MAC's EUI-64 interface id; distinct MACs give distinct host
addresses. -/
theorem eui64_layout_injective (network : Ip6Network) (prefix64 : network.mask.len = 64) :
    (∀ macAddress : MacAddress, ∃ host, network.eui64 macAddress = some host ∧
      host.network = network ∧
      host.address.toNat / 2 ^ 64 = network.address.toNat / 2 ^ 64 ∧
      host.address.toNat % 2 ^ 64 = ((macAddress.toNat / 2 ^ 24) ^^^ 0x020000) * 2 ^ 40 +
        0xFFFE * 2 ^ 24 + macAddress.toNat % 2 ^ 24) ∧
    ∀ first second : MacAddress, ∀ firstHost secondHost : Ip6Host,
      network.eui64 first = some firstHost → network.eui64 second = some secondHost →
      first ≠ second → firstHost.address ≠ secondHost.address := by
  refine ⟨fun macAddress => ?_, fun first second firstHost secondHost builtFirst builtSecond
    distinct same => distinct (eui64_injective network builtFirst builtSecond same)⟩
  obtain ⟨host, built, sameNetwork, -⟩ := eui64_eq_some network macAddress prefix64
  exact ⟨host, built, sameNetwork, div_of_eui64_eq_some built,
    (mod_of_eui64_eq_some built).trans (interfaceId_eq macAddress)⟩

/-- The link-local network `fe80::/64`. -/
theorem eui64_layout_injective_link_local :
    let network : Ip6Network := ⟨⟨0xfe800000000000000000000000000000, by decide⟩,
      ⟨0xffffffffffffffff0000000000000000, by decide, ⟨64, by decide, rfl⟩⟩, by decide⟩
    network.mask.len = 64 ∧
    ((∀ macAddress : MacAddress, ∃ host, network.eui64 macAddress = some host ∧
      host.network = network ∧
      host.address.toNat / 2 ^ 64 = network.address.toNat / 2 ^ 64 ∧
      host.address.toNat % 2 ^ 64 = ((macAddress.toNat / 2 ^ 24) ^^^ 0x020000) * 2 ^ 40 +
        0xFFFE * 2 ^ 24 + macAddress.toNat % 2 ^ 24) ∧
    ∀ first second : MacAddress, ∀ firstHost secondHost : Ip6Host,
      network.eui64 first = some firstHost → network.eui64 second = some secondHost →
      first ≠ second → firstHost.address ≠ secondHost.address) :=
  have prefix64 : (0xffffffffffffffff0000000000000000 : Nat) = 2 ^ 128 - 2 ^ (128 - 64) := rfl
  ⟨Ip6Mask.len_eq (by decide) prefix64, eui64_layout_injective _ (Ip6Mask.len_eq (by decide) prefix64)⟩

end Ip6Network

end PyTcp
