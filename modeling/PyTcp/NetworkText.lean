import Mathlib.Data.String.Basic
import PyTcp.MaskText

namespace PyTcp

section Split

variable {α : Type} (p : α → Bool)

/-- No part that `splitOnP` cuts holds a separator. -/
theorem not_of_mem_splitOnP : ∀ (xs : List α), ∀ part ∈ xs.splitOnP p, ∀ x ∈ part, p x = false
  | [], part, member, x => by
    obtain rfl := List.mem_singleton.mp member
    nofun
  | y :: ys, part, member, x => by
    obtain ⟨head, tail, parts⟩ := List.exists_cons_of_ne_nil (List.splitOnP_ne_nil p ys)
    have rest := not_of_mem_splitOnP ys
    rw [List.splitOnP_cons] at member
    split_ifs at member with separator
    · rcases List.mem_cons.mp member with rfl | later
      · nofun
      · exact rest part later x
    · rw [parts, List.modifyHead_cons] at member
      rcases List.mem_cons.mp member with rfl | later
      · rintro (_ | ⟨_, inHead⟩)
        · exact Bool.eq_false_iff.mpr separator
        · exact rest head (parts ▸ List.mem_cons_self _ _) x inHead
      · exact rest part (parts ▸ List.mem_cons_of_mem _ later) x

end Split

/-- `text.split("/")` unpacks into two parts exactly when the text has one slash, between them. -/
theorem split_slash_eq_pair_iff (text address mask : String) :
    text.split (· == '/') = [address, mask] ↔
      text = address ++ "/" ++ mask ∧ '/' ∉ address.toList ∧ '/' ∉ mask.toList := by
  have noSlash : ∀ part : List Char, '/' ∉ part → ∀ c ∈ part, ¬(c == '/') = true :=
    fun part outside c member same => outside (beq_iff_eq.mp same ▸ member)
  have joined : (address ++ "/" ++ mask).data = address.data ++ '/' :: mask.data := by
    simp only [String.data_append, List.append_assoc]
    rfl
  rw [String.split_of_valid]
  constructor
  · intro parts
    have cut : text.data.splitOnP (· == '/') = [address.data, mask.data] := by
      simpa only [List.map_map, Function.comp_def, List.map_id'] using congrArg (List.map String.data) parts
    have slashFree := not_of_mem_splitOnP (· == '/') text.data
    rw [cut] at slashFree
    refine ⟨String.ext ?_, fun inside => ?_, fun inside => ?_⟩
    · rw [joined, ← List.intercalate_splitOn text.data '/']
      show ['/'].intercalate (text.data.splitOnP (· == '/')) = _
      simp [cut, List.intercalate]
    · simpa using slashFree _ (List.mem_cons_self _ _) '/' inside
    · simpa using slashFree _ (List.mem_cons_of_mem _ (List.mem_singleton_self _)) '/' inside
  · rintro ⟨rfl, addressFree, maskFree⟩
    rw [joined, List.splitOnP_first _ _ (noSlash address.data addressFree) '/' rfl,
      List.splitOnP_eq_single _ _ (noSlash mask.data maskFree)]
    rfl

namespace Ip6Network

/-- `Ip6Network(network)` for a `str`, with `ip6Address` the `str` form of `Ip6Address`, whose
`IP6_REGEX` search and `socket.inet_pton` are left to that parameter (`none` for every exception
it raises). `address, mask = network.split("/")` raises `ValueError` unless there is exactly one
slash; the mask is `Ip6Mask("/" + mask)` and the address is the tuple form's. Every exception the
`try` catches ends in `Ip6NetworkFormatError`, the `none` here. -/
def ofText (ip6Address : String → Option Ip6Address) (network : String) : Option Ip6Network :=
  match network.split (· == '/') with
  | [address, mask] =>
    (Ip6Mask.ofText ("/" ++ mask)).bind fun mask =>
      (ip6Address address).bind fun address => ofAddressMask address mask
  | _ => none

variable (ip6Address : String → Option Ip6Address)

theorem ofText_of_split {text address mask : String}
    (parts : text.split (· == '/') = [address, mask]) :
    ofText ip6Address text = (Ip6Mask.ofText ("/" ++ mask)).bind fun m =>
      (ip6Address address).bind fun a => ofAddressMask a m := by
  rw [ofText, parts]

/-- `Ip6Network(text)` is the tuple form of `Ip6Address(address)` and `Ip6Mask("/" + mask)` for
`address, mask = text.split("/")`. -/
theorem ofText_eq_some_iff (text : String) (network : Ip6Network) :
    ofText ip6Address text = some network ↔ ∃ address mask a m,
      text.split (· == '/') = [address, mask] ∧ ip6Address address = some a ∧
      Ip6Mask.ofText ("/" ++ mask) = some m ∧ ofAddressMask a m = some network := by
  unfold ofText
  split
  · rename_i address mask parts
    constructor
    · intro built
      obtain ⟨m, masked, rest⟩ := Option.bind_eq_some.mp built
      obtain ⟨a, parsed, tuple⟩ := Option.bind_eq_some.mp rest
      exact ⟨address, mask, a, m, parts, parsed, masked, tuple⟩
    · rintro ⟨address', mask', a, m, parts', parsed, masked, tuple⟩
      obtain ⟨rfl, rfl⟩ : address = address' ∧ mask = mask' := by simpa using parts.symm.trans parts'
      rw [masked, Option.some_bind, parsed, Option.some_bind, tuple]
  · rename_i notPair
    exact iff_of_false nofun fun ⟨address, mask, _, _, parts, _⟩ => notPair address mask parts

/-- `Ip6Network(f"{address}/{len(mask)}")` is `Ip6Network((Ip6Address(address), mask))` for every
address text without a slash, whatever the text form of `Ip6Address` reads it as. -/
theorem ofText_eq_ofAddressMask {text : String} {a : Ip6Address} (noSlash : '/' ∉ text.toList)
    (parsed : ip6Address text = some a) (mask : Ip6Mask) :
    ofText ip6Address (text ++ "/" ++ toString mask.len) = ofAddressMask a mask := by
  have digitsOnly : '/' ∉ (toString mask.len).toList := fun inside =>
    absurd ((Ip6Mask.toString_len mask).2.2.1 _ inside) (by decide)
  rw [ofText_of_split ip6Address ((split_slash_eq_pair_iff _ _ _).mpr ⟨rfl, noSlash, digitsOnly⟩),
    Ip6Mask.ofText_len, Option.some_bind, parsed, Option.some_bind]

/-- `Ip6Network("::/0")`, under a text form of `Ip6Address` that reads `::`. -/
theorem ofText_eq_ofAddressMask_unspecified :
    let ip6Address : String → Option Ip6Address := fun text =>
      if text = "::" then some Ip6Address.unspecified else none
    let mask : Ip6Mask := ⟨0, by decide, ⟨0, by decide, by decide⟩⟩
    '/' ∉ "::".toList ∧ ip6Address "::" = some Ip6Address.unspecified ∧
      ofText ip6Address ("::" ++ "/" ++ toString mask.len) =
        ofAddressMask Ip6Address.unspecified mask := by
  intro ip6Address mask
  have noSlash : '/' ∉ "::".toList := by decide
  have parsed : ip6Address "::" = some Ip6Address.unspecified := if_pos rfl
  exact ⟨noSlash, parsed, ofText_eq_ofAddressMask ip6Address noSlash parsed mask⟩

end Ip6Network

namespace Ip6Host

/-- The exceptions `Ip6Host(host)` raises for a `str`. -/
inductive TextError
  /-- `Ip6HostFormatError`, after the `try` caught the `ValueError` of a text without exactly
  one slash or the `Ip6AddressFormatError` of its address part. -/
  | hostFormat
  /-- The `Ip6NetworkFormatError` of `Ip6Network(host)`, which the `try` does not catch. -/
  | networkFormat
  deriving DecidableEq, Repr

/-- `Ip6Host(host)` for a `str`: `address, mask = host.split("/")`, then the address
`Ip6Address(address)` and the network `Ip6Network(host)`, with `gateway` left `None`. -/
def ofText (ip6Address : String → Option Ip6Address) (host : String) : Except TextError Ip6Host :=
  match host.split (· == '/') with
  | [address, _] =>
    match ip6Address address with
    | none => .error .hostFormat
    | some address =>
      match Ip6Network.ofText ip6Address host with
      | none => .error .networkFormat
      | some network => .ok (ofAddressNetwork address network)
  | _ => .error .hostFormat

variable (ip6Address : String → Option Ip6Address)

/-- `Ip6Host(text)` is the tuple form `Ip6Host((Ip6Address(address), Ip6Mask("/" + mask)))` of
the two parts of the text. -/
theorem ofText_eq_ok_iff (text : String) (host : Ip6Host) :
    ofText ip6Address text = .ok host ↔ ∃ address mask a m,
      text.split (· == '/') = [address, mask] ∧ ip6Address address = some a ∧
      Ip6Mask.ofText ("/" ++ mask) = some m ∧ ofAddressMask a m = some host := by
  unfold ofText
  split
  · rename_i address mask parts
    constructor
    · intro built
      rcases parsed : ip6Address address with _ | a <;> rw [parsed] at built
      · cases built
      rcases networkBuilt : Ip6Network.ofText ip6Address text with _ | network <;>
        rw [networkBuilt] at built
      · cases built
      cases built
      obtain ⟨address', mask', a', m, parts', parsed', masked, tuple⟩ :=
        (Ip6Network.ofText_eq_some_iff ip6Address text network).mp networkBuilt
      obtain ⟨rfl, rfl⟩ : address = address' ∧ mask = mask' := by simpa using parts.symm.trans parts'
      obtain rfl : a = a' := Option.some.inj (parsed.symm.trans parsed')
      exact ⟨address, mask, a, m, parts, parsed, masked, by rw [ofAddressMask, tuple]; rfl⟩
    · rintro ⟨address', mask', a, m, parts', parsed, masked, tuple⟩
      obtain ⟨rfl, rfl⟩ : address = address' ∧ mask = mask' := by simpa using parts.symm.trans parts'
      obtain ⟨network, networkBuilt, rfl⟩ := Option.map_eq_some'.mp tuple
      have built : Ip6Network.ofText ip6Address text = some network :=
        (Ip6Network.ofText_eq_some_iff ip6Address text network).mpr
          ⟨address, mask, a, m, parts, parsed, masked, networkBuilt⟩
      rw [parsed, built]
  · rename_i notPair
    exact iff_of_false nofun fun ⟨address, mask, _, _, parts, _⟩ => notPair address mask parts

/-- `Ip6Host(text)` raises the `Ip6NetworkFormatError` of `Ip6Network(text)`, which its `try`
lets through, exactly when the text has one slash and its address part parses but its mask part
is no `/0` to `/128` or the masked address is all ones; and `Ip6HostFormatError` exactly when the
text has not one slash or its address part does not parse. -/
theorem ofText_raises (text : String) :
    (ofText ip6Address text = .error .networkFormat ↔ ∃ address mask a,
      text.split (· == '/') = [address, mask] ∧ ip6Address address = some a ∧
      ∀ m, Ip6Mask.ofText ("/" ++ mask) = some m → 2 ^ 128 - 1 ≤ a.toNat &&& m.toNat) ∧
    (ofText ip6Address text = .error .hostFormat ↔
      ∀ address mask, text.split (· == '/') = [address, mask] → ip6Address address = none) := by
  unfold ofText
  split
  · rename_i address mask parts
    have unique : ∀ address' mask', text.split (· == '/') = [address', mask'] →
        address' = address ∧ mask' = mask := fun address' mask' parts' => by
      simpa using parts'.symm.trans parts
    have masking : ∀ a, Ip6Network.ofText ip6Address text = none → ip6Address address = some a →
        ∀ m, Ip6Mask.ofText ("/" ++ mask) = some m → 2 ^ 128 - 1 ≤ a.toNat &&& m.toNat :=
      fun a failed parsed m masked => by
        rw [Ip6Network.ofText_of_split ip6Address parts, masked, Option.some_bind, parsed,
          Option.some_bind, Ip6Network.ofAddressMask_eq_none_iff] at failed
        exact failed
    rcases parsed : ip6Address address with _ | a
    · refine ⟨iff_of_false nofun fun ⟨address', mask', a, parts', parsed', _⟩ => ?_,
        iff_of_true rfl fun address' mask' parts' => (unique address' mask' parts').1 ▸ parsed⟩
      rw [(unique address' mask' parts').1, parsed] at parsed'
      cases parsed'
    rcases networkBuilt : Ip6Network.ofText ip6Address text with _ | network
    · exact ⟨iff_of_true rfl ⟨address, mask, a, parts, parsed, masking a networkBuilt parsed⟩,
        iff_of_false nofun fun none => by cases (none address mask parts).symm.trans parsed⟩
    · refine ⟨iff_of_false nofun fun ⟨address', mask', a', parts', parsed', above⟩ => ?_,
        iff_of_false nofun fun none => by cases (none address mask parts).symm.trans parsed⟩
      obtain ⟨rfl, rfl⟩ := unique address' mask' parts'
      obtain rfl : a = a' := Option.some.inj (parsed.symm.trans parsed')
      obtain ⟨address'', mask'', a'', m, parts'', parsed'', masked, tuple⟩ :=
        (Ip6Network.ofText_eq_some_iff ip6Address text network).mp networkBuilt
      obtain ⟨rfl, rfl⟩ := unique address'' mask'' parts''
      obtain rfl : a = a'' := Option.some.inj (parsed.symm.trans parsed'')
      have fits := ((Ip6Network.ofAddressMask_eq_some_iff a m network).mp tuple).1
      exact absurd (above m masked) (Nat.not_le_of_lt fits)
  · rename_i notPair
    exact ⟨iff_of_false nofun fun ⟨address, mask, _, parts, _⟩ => notPair address mask parts,
      iff_of_true rfl fun address mask parts => absurd parts (notPair address mask)⟩

end Ip6Host

end PyTcp
