import PyTcp.Struct

namespace PyTcp

/-- Modelled from the spec: tcp/ps.py is absent; the length of the TCP header without options,
and the kind and length of each option. -/
def tcpHeaderLen : Nat := 20
def tcpOptEol : Nat := 0
def tcpOptEolLen : Nat := 1
def tcpOptNop : Nat := 1
def tcpOptNopLen : Nat := 1
def tcpOptMss : Nat := 2
def tcpOptMssLen : Nat := 4
def tcpOptWscale : Nat := 3
def tcpOptWscaleLen : Nat := 3
def tcpOptSackPerm : Nat := 4
def tcpOptSackPermLen : Nat := 2
def tcpOptTimestamp : Nat := 8
def tcpOptTimestampLen : Nat := 10

/-- The option classes of tcp/fpa.py, each with what its constructor stores. -/
inductive TcpOpt
  | eol
  | nop
  | mss (mss : Nat)
  | wscale (wscale : Nat)
  | sackPerm
  | timestamp (tsval tsecr : Nat)
  deriving DecidableEq, Repr

namespace TcpOpt

/-- `__len__` of each option class. -/
def len : TcpOpt → Nat
  | eol => tcpOptEolLen
  | nop => tcpOptNopLen
  | mss _ => tcpOptMssLen
  | wscale _ => tcpOptWscaleLen
  | sackPerm => tcpOptSackPermLen
  | timestamp _ _ => tcpOptTimestampLen

/-- `raw_option` of each option class: `struct.pack` of the option's kind, its length and its
values, `none` for the `struct.error` of a value that does not fit. -/
def rawOption : TcpOpt → Option (List UInt8)
  | eol => packFields [(1, tcpOptEol)]
  | nop => packFields [(1, tcpOptNop)]
  | mss size => packFields [(1, tcpOptMss), (1, tcpOptMssLen), (2, size)]
  | wscale shift => packFields [(1, tcpOptWscale), (1, tcpOptWscaleLen), (1, shift)]
  | sackPerm => packFields [(1, tcpOptSackPerm), (1, tcpOptSackPermLen)]
  | timestamp tsval tsecr =>
    packFields [(1, tcpOptTimestamp), (1, tcpOptTimestampLen), (4, tsval), (4, tsecr)]

/-- Whether every value the option packs fits its field. -/
def Fits : TcpOpt → Prop
  | mss size => size < 2 ^ 16
  | wscale shift => shift < 2 ^ 8
  | timestamp tsval tsecr => tsval < 2 ^ 32 ∧ tsecr < 2 ^ 32
  | _ => True

instance : DecidablePred Fits := fun option => by
  cases option <;> unfold Fits <;> infer_instance

theorem rawOption_isSome_iff (option : TcpOpt) : option.rawOption.isSome ↔ option.Fits := by
  cases option <;> simp [rawOption, Fits, packFields_isSome_iff, FieldsFit, tcpOptEol, tcpOptNop,
    tcpOptMss, tcpOptMssLen, tcpOptWscale, tcpOptWscaleLen, tcpOptSackPerm, tcpOptSackPermLen,
    tcpOptTimestamp, tcpOptTimestampLen]

/-- `raw_option` is as long as `__len__` says. -/
theorem length_rawOption {option : TcpOpt} {raw : List UInt8} (packed : option.rawOption = some raw) :
    raw.length = option.len := by
  cases option <;> exact (length_packFields packed).trans rfl

/-- One option read off the front of option bytes: the kind byte, and for a kind other than EOL
and NOP the length byte and the value after it. The sources hold no TCP parser; this is the
reading that the layout `raw_option` writes is checked against. -/
def readOption : List UInt8 → Option (TcpOpt × List UInt8)
  | [] => none
  | kind :: rest =>
    if kind.toNat = tcpOptEol then some (eol, rest)
    else if kind.toNat = tcpOptNop then some (nop, rest)
    else if kind.toNat = tcpOptMss then some (mss (unpackFrom rest 1 2), rest.drop 3)
    else if kind.toNat = tcpOptWscale then some (wscale (unpackFrom rest 1 1), rest.drop 2)
    else if kind.toNat = tcpOptSackPerm then some (sackPerm, rest.drop 1)
    else if kind.toNat = tcpOptTimestamp then
      some (timestamp (unpackFrom rest 1 4) (unpackFrom rest 5 4), rest.drop 9)
    else none

/-- The reading takes back every option `raw_option` writes, and leaves what follows it. -/
theorem readOption_rawOption {option : TcpOpt} {raw : List UInt8}
    (packed : option.rawOption = some raw) (rest : List UInt8) :
    readOption (raw ++ rest) = some (option, rest) := by
  have fits := (rawOption_isSome_iff option).mp (Option.isSome_iff_exists.mpr ⟨raw, packed⟩)
  cases option <;> simp only [rawOption] at packed <;>
  · rw [packFields_eq_some ((packFields_isSome_iff _).mp (Option.isSome_iff_exists.mpr ⟨raw, packed⟩)),
      Option.some.injEq] at packed
    subst packed
    simp only [Fits, Nat.reducePow] at fits
    -- the kind byte picks the branch; each value is read where it was packed
    simp [readOption, bytesBE_one, toNat_toUInt8, tcpOptEol, tcpOptNop, tcpOptMss, tcpOptMssLen,
      tcpOptWscale, tcpOptWscaleLen, tcpOptSackPerm, tcpOptSackPermLen, tcpOptTimestamp,
      tcpOptTimestampLen, unpackFrom_cons_succ, unpackFrom_cons_one, unpackFrom_bytesBE_append,
      unpackFrom_bytesBE_append_past, drop_bytesBE_append, Nat.mod_eq_of_lt, fits]

/-- Every option writes at least one byte. -/
theorem len_pos (option : TcpOpt) : 0 < option.len := by
  cases option <;> exact Nat.succ_pos _

end TcpOpt

/-- `_raw_options`: the options' `raw_option` joined in order. -/
def rawOptions : List TcpOpt → Option (List UInt8)
  | [] => some []
  | option :: options => do
    let raw ← option.rawOption
    let rest ← rawOptions options
    pure (raw ++ rest)

theorem rawOptions_isSome_iff (options : List TcpOpt) :
    (rawOptions options).isSome ↔ ∀ option ∈ options, option.Fits := by
  induction options with
  | nil => simp [rawOptions]
  | cons option options ih =>
    rw [List.forall_mem_cons, ← ih, ← TcpOpt.rawOption_isSome_iff]
    simp only [rawOptions]
    cases option.rawOption <;> cases rawOptions options <;> simp

theorem length_rawOptions {options : List TcpOpt} {raw : List UInt8}
    (packed : rawOptions options = some raw) : raw.length = (options.map TcpOpt.len).sum := by
  induction options generalizing raw with
  | nil => simp_all [rawOptions]
  | cons option options ih =>
    simp only [rawOptions, Option.bind_eq_bind, Option.bind_eq_some, Option.some.injEq,
      Option.pure_def] at packed
    obtain ⟨first, atFirst, rest, atRest, rfl⟩ := packed
    simp [TcpOpt.length_rawOption atFirst, ih atRest]

theorem rawOptions_cons_eq_some {option : TcpOpt} {options : List TcpOpt} {raw : List UInt8} :
    rawOptions (option :: options) = some raw ↔
      ∃ first rest, option.rawOption = some first ∧ rawOptions options = some rest ∧
        first ++ rest = raw := by
  simp only [rawOptions, Option.bind_eq_bind, Option.bind_eq_some, Option.pure_def,
    Option.some.injEq, exists_and_left]

/-- A nonempty option list writes some bytes. -/
theorem ne_nil_of_rawOptions_cons {option : TcpOpt} {options : List TcpOpt} {raw : List UInt8}
    (packed : rawOptions (option :: options) = some raw) : raw ≠ [] := by
  obtain ⟨first, rest, atHead, -, rfl⟩ := rawOptions_cons_eq_some.mp packed
  have written := (TcpOpt.length_rawOption atHead).symm ▸ option.len_pos
  exact List.append_ne_nil_of_left_ne_nil (List.ne_nil_of_length_pos written) rest

/-- Different option lists never join into the same `_raw_options` bytes. -/
theorem rawOptions_injective : ∀ {first second : List TcpOpt} {raw : List UInt8},
    rawOptions first = some raw → rawOptions second = some raw → first = second
  | [], [], _, _, _ => rfl
  | [], _ :: _, _, packedFirst, packedSecond =>
    absurd (Option.some.inj packedFirst).symm (ne_nil_of_rawOptions_cons packedSecond)
  | _ :: _, [], _, packedFirst, packedSecond =>
    absurd (Option.some.inj packedSecond).symm (ne_nil_of_rawOptions_cons packedFirst)
  | _ :: _, _ :: _, raw, packedFirst, packedSecond => by
    obtain ⟨head, tail, atHead, atTail, rfl⟩ := rawOptions_cons_eq_some.mp packedFirst
    obtain ⟨head', tail', atHead', atTail', same⟩ := rawOptions_cons_eq_some.mp packedSecond
    have read := TcpOpt.readOption_rawOption atHead tail
    rw [← same, TcpOpt.readOption_rawOption atHead' tail', Option.some.injEq, Prod.mk.injEq] at read
    obtain ⟨rfl, rfl⟩ := read
    rw [rawOptions_injective atTail atTail']

/-- A `TcpAssembler` after its constructor, which asserts that the header length is a
multiple of four. -/
structure TcpAssembler where
  sport : Nat
  dport : Nat
  seq : Nat
  ack : Nat
  flagNs : Bool
  flagCrw : Bool
  flagEce : Bool
  flagUrg : Bool
  flagAck : Bool
  flagPsh : Bool
  flagRst : Bool
  flagSyn : Bool
  flagFin : Bool
  win : Nat
  urp : Nat
  options : List TcpOpt
  data : List UInt8
  hlen_aligned : (tcpHeaderLen + (options.map TcpOpt.len).sum) % 4 = 0

namespace TcpAssembler

/-- `_hlen`: the header length, options included. -/
def hlen (tcp : TcpAssembler) : Nat := tcpHeaderLen + (tcp.options.map TcpOpt.len).sum

/-- `__len__`. -/
def len (tcp : TcpAssembler) : Nat := tcp.hlen + tcp.data.length

/-- The byte `assemble` packs after the acknowledgment number: `_hlen << 2 | _flag_ns`. -/
def offsetByte (tcp : TcpAssembler) : Nat := tcp.hlen <<< 2 ||| tcp.flagNs.toNat

/-- The flags byte: `_flag_crw << 7 | _flag_ece << 6 | ... | _flag_fin`. -/
def flagsByte (tcp : TcpAssembler) : Nat :=
  tcp.flagCrw.toNat <<< 7 ||| tcp.flagEce.toNat <<< 6 ||| tcp.flagUrg.toNat <<< 5 |||
    tcp.flagAck.toNat <<< 4 ||| tcp.flagPsh.toNat <<< 3 ||| tcp.flagRst.toNat <<< 2 |||
    tcp.flagSyn.toNat <<< 1 ||| tcp.flagFin.toNat

/-- The unsigned fields of the format `"! HH L L BBH HH"` that `assemble` packs before the
options, the checksum zero. -/
def headerFields (tcp : TcpAssembler) : List (Nat × Nat) :=
  [(2, tcp.sport), (2, tcp.dport), (4, tcp.seq), (4, tcp.ack), (1, tcp.offsetByte),
    (1, tcp.flagsByte), (2, tcp.win), (2, 0), (2, tcp.urp)]

/-- The segment the first `struct.pack_into` of `assemble` writes, the checksum field zero. -/
def segment (tcp : TcpAssembler) : Option (List UInt8) := do
  let rawOptions ← rawOptions tcp.options
  let header ← packFields tcp.headerFields
  pure (header ++ rawOptions ++ tcp.data)

/-- `assemble` into a frame as long as the segment: the segment with its checksum field zero,
then `inet_cksum` of that frame with the pseudo-header sum `pshdrSum`, packed at offset 16. -/
def assemble (tcp : TcpAssembler) (pshdrSum : Nat) : Option (List UInt8) := do
  let frame ← tcp.segment
  let cksum ← packUInt 2 (inetCksum frame pshdrSum)
  pure (frame.take 16 ++ cksum ++ frame.drop 18)

/-- Whether every value `assemble` packs fits its field: 16-bit ports, window and urgent
pointer, 32-bit sequence and acknowledgment numbers, a header short enough for `_hlen << 2` to
fit a byte, and each option's own values. -/
def Fits (tcp : TcpAssembler) : Prop :=
  tcp.sport < 2 ^ 16 ∧ tcp.dport < 2 ^ 16 ∧ tcp.seq < 2 ^ 32 ∧ tcp.ack < 2 ^ 32 ∧
    tcp.hlen < 64 ∧ tcp.win < 2 ^ 16 ∧ tcp.urp < 2 ^ 16 ∧ ∀ option ∈ tcp.options, option.Fits

instance (tcp : TcpAssembler) : Decidable tcp.Fits := by
  unfold Fits
  infer_instance

/-- The offset byte carries the header length in 32-bit words in its high nibble and the NS flag
in its low bit. -/
theorem offsetByte_eq (tcp : TcpAssembler) : tcp.offsetByte = 4 * tcp.hlen + tcp.flagNs.toNat := by
  have low := Nat.lor_bit false (2 * tcp.hlen) tcp.flagNs 0
  simp only [Nat.bit_val, Bool.false_or, Nat.or_zero, Bool.toNat_false, add_zero, mul_zero,
    zero_add] at low
  rw [offsetByte, Nat.shiftLeft_eq, show tcp.hlen * 2 ^ 2 = 2 * (2 * tcp.hlen) by ring, low]
  omega

/-- The flags byte has one bit per flag, CWR highest and FIN lowest. -/
theorem flagsByte_eq (tcp : TcpAssembler) :
    tcp.flagsByte = 128 * tcp.flagCrw.toNat + 64 * tcp.flagEce.toNat + 32 * tcp.flagUrg.toNat +
      16 * tcp.flagAck.toNat + 8 * tcp.flagPsh.toNat + 4 * tcp.flagRst.toNat +
      2 * tcp.flagSyn.toNat + tcp.flagFin.toNat := by
  have bits : ∀ crw ece urg ack psh rst syn fin : Bool,
      (crw.toNat <<< 7 ||| ece.toNat <<< 6 ||| urg.toNat <<< 5 ||| ack.toNat <<< 4 |||
        psh.toNat <<< 3 ||| rst.toNat <<< 2 ||| syn.toNat <<< 1 ||| fin.toNat) =
      128 * crw.toNat + 64 * ece.toNat + 32 * urg.toNat + 16 * ack.toNat + 8 * psh.toNat +
        4 * rst.toNat + 2 * syn.toNat + fin.toNat := by
    decide
  exact bits ..

theorem offsetByte_lt_iff (tcp : TcpAssembler) : tcp.offsetByte < 256 ↔ tcp.hlen < 64 := by
  rw [offsetByte_eq]
  cases tcp.flagNs <;> simp <;> omega

theorem flagsByte_lt (tcp : TcpAssembler) : tcp.flagsByte < 256 := by
  have := tcp.flagCrw.toNat_le; have := tcp.flagEce.toNat_le; have := tcp.flagUrg.toNat_le
  have := tcp.flagAck.toNat_le; have := tcp.flagPsh.toNat_le; have := tcp.flagRst.toNat_le
  have := tcp.flagSyn.toNat_le; have := tcp.flagFin.toNat_le
  rw [flagsByte_eq]
  omega

theorem testBit_toNat_zero (b : Bool) : b.toNat.testBit 0 = b := by cases b <;> rfl

theorem testBit_toNat_succ (b : Bool) (i : Nat) : b.toNat.testBit (i + 1) = false :=
  Nat.testBit_lt_two_pow (lt_of_le_of_lt b.toNat_le (Nat.one_lt_two_pow (Nat.succ_ne_zero i)))

/-- The flags byte holds CWR, ECE, URG, ACK, PSH, RST, SYN and FIN from bit 7 down to bit 0. -/
theorem testBit_flagsByte (tcp : TcpAssembler) :
    [7, 6, 5, 4, 3, 2, 1, 0].map tcp.flagsByte.testBit =
      [tcp.flagCrw, tcp.flagEce, tcp.flagUrg, tcp.flagAck, tcp.flagPsh, tcp.flagRst,
        tcp.flagSyn, tcp.flagFin] := by
  simp only [flagsByte, List.map_cons, List.map_nil, Nat.testBit_or, Nat.testBit_shiftLeft,
    testBit_toNat_succ, testBit_toNat_zero, ge_iff_le, Nat.reduceLeDiff, Nat.reduceSub, le_refl,
    decide_True, decide_False, Nat.sub_self, Bool.true_and, Bool.false_and, Bool.or_false,
    Bool.false_or]

theorem fits_iff (tcp : TcpAssembler) :
    tcp.Fits ↔ FieldsFit tcp.headerFields ∧ ∀ option ∈ tcp.options, option.Fits := by
  simp [Fits, FieldsFit, headerFields, offsetByte_lt_iff, flagsByte_lt, and_assoc]

/-- `assemble` raises exactly when a value does not fit its field. -/
theorem segment_isSome_iff (tcp : TcpAssembler) : tcp.segment.isSome ↔ tcp.Fits := by
  rw [fits_iff, ← rawOptions_isSome_iff, ← packFields_isSome_iff]
  unfold segment
  cases rawOptions tcp.options <;> cases packFields tcp.headerFields <;> simp

/-- The segment `assemble` packs before its checksum, once every value fits: the header up to
the checksum field, the zero checksum, then the urgent pointer, options and data. -/
theorem segment_eq_some {tcp : TcpAssembler} (fits : tcp.Fits) : ∃ raw,
    rawOptions tcp.options = some raw ∧ tcp.segment = some (
      (bytesBE 2 tcp.sport ++ bytesBE 2 tcp.dport ++ bytesBE 4 tcp.seq ++ bytesBE 4 tcp.ack ++
        bytesBE 1 tcp.offsetByte ++ bytesBE 1 tcp.flagsByte ++ bytesBE 2 tcp.win) ++
      bytesBE 2 0 ++ (bytesBE 2 tcp.urp ++ raw ++ tcp.data)) := by
  obtain ⟨header, options⟩ := (fits_iff tcp).mp fits
  obtain ⟨raw, packed⟩ := Option.isSome_iff_exists.mp ((rawOptions_isSome_iff _).mpr options)
  refine ⟨raw, packed, ?_⟩
  rw [segment, packed, packFields_eq_some header]
  simp [headerFields]

/-- `assemble` packs the checksum of the segment into its zero checksum field. -/
theorem assemble_of_segment {tcp : TcpAssembler} {header rest : List UInt8}
    (headerLen : header.length = 16) (segmented : tcp.segment = some (header ++ bytesBE 2 0 ++ rest))
    (pshdrSum : Nat) : tcp.assemble pshdrSum =
      some (header ++ bytesBE 2 (inetCksum (header ++ bytesBE 2 0 ++ rest) pshdrSum) ++ rest) := by
  have upToCksum : (header ++ bytesBE 2 0).length = 18 := by simp [headerLen]
  simp only [assemble, segmented, Option.bind_eq_bind, Option.some_bind,
    @packUInt_eq_some 2 _ (inetCksum_lt _ _), Option.pure_def]
  rw [List.drop_left' upToCksum, List.append_assoc header, List.take_left' headerLen]

/-- `assemble` raises exactly when a value does not fit its field; the checksum always fits. -/
theorem assemble_isSome_iff (tcp : TcpAssembler) (pshdrSum : Nat) :
    (tcp.assemble pshdrSum).isSome ↔ tcp.Fits := by
  rw [← segment_isSome_iff]
  cases segmented : tcp.segment <;>
    simp [assemble, segmented, @packUInt_eq_some 2 _ (inetCksum_lt _ _)]

/-- What `assemble` writes is `__len__` bytes long; `struct.unpack_from` at each field's offset
reads the field back, the offset byte giving the header length and NS; and the options and the
data follow the fixed header. -/
theorem assemble_fields (tcp : TcpAssembler) (pshdrSum : Nat) (fits : tcp.Fits) :
    ∃ frame, tcp.assemble pshdrSum = some frame ∧ frame.length = tcp.len ∧
      unpackFrom frame 0 2 = tcp.sport ∧ unpackFrom frame 2 2 = tcp.dport ∧
      unpackFrom frame 4 4 = tcp.seq ∧ unpackFrom frame 8 4 = tcp.ack ∧
      unpackFrom frame 12 1 = 4 * tcp.hlen + tcp.flagNs.toNat ∧
      unpackFrom frame 13 1 = tcp.flagsByte ∧ unpackFrom frame 14 2 = tcp.win ∧
      unpackFrom frame 18 2 = tcp.urp ∧
      rawOptions tcp.options = some ((frame.drop tcpHeaderLen).take (tcp.hlen - tcpHeaderLen)) ∧
      frame.drop tcp.hlen = tcp.data := by
  obtain ⟨raw, packed, segmented⟩ := segment_eq_some fits
  obtain ⟨sport, dport, seq, ack, short, win, urp, -⟩ := fits
  have offsetFits : tcp.offsetByte < 2 ^ (8 * 1) := (offsetByte_lt_iff tcp).mpr short
  have flagsFits : tcp.flagsByte < 2 ^ (8 * 1) := flagsByte_lt tcp
  have cksumFits : ∀ data : List UInt8, inetCksum data pshdrSum < 2 ^ (8 * 2) := (inetCksum_lt · _)
  have rawLen := length_rawOptions packed
  refine ⟨_, assemble_of_segment (by simp) segmented pshdrSum, ?_⟩
  have headerLen : tcp.hlen = raw.length + tcpHeaderLen := by rw [hlen, rawLen, Nat.add_comm]
  rw [← offsetByte_eq, headerLen, Nat.add_sub_cancel, packed]
  simp only [List.append_assoc]
  refine ⟨by simp only [len, headerLen, tcpHeaderLen, List.length_append, length_bytesBE]; omega, ?_⟩
  simp (disch := first | assumption | ((try simp only [length_bytesBE]); omega)) only
    [unpackFrom_append_of_le, length_bytesBE, unpackFrom_bytesBE_append, unpackFrom_bytesBE_self,
    Nat.reduceSub, Nat.reduceSubDiff, and_self, tcpHeaderLen, drop_bytesBE_append, List.drop_zero,
    List.take_left, List.drop_left]

/-- A SYN from port 1 to port 2 with one MSS option. -/
theorem assemble_fields_syn :
    let tcp : TcpAssembler := ⟨1, 2, 0, 0, false, false, false, false, false, false, false, true,
      false, 0, 0, [.mss 1460], [], by decide⟩
    tcp.Fits ∧ ∃ frame, tcp.assemble 0 = some frame ∧ frame.length = tcp.len := by
  intro tcp
  have fits : tcp.Fits := by decide
  exact ⟨fits, (assemble_fields tcp 0 fits).imp fun _ found => ⟨found.1, found.2.1⟩⟩

/-- Every segment `assemble` writes passes the receiver's checksum test: `inet_cksum` of it with
the same pseudo-header sum is zero. -/
theorem assemble_cksum (tcp : TcpAssembler) (pshdrSum : Nat) {frame : List UInt8}
    (assembled : tcp.assemble pshdrSum = some frame) : inetCksum frame pshdrSum = 0 := by
  have fits := (assemble_isSome_iff tcp pshdrSum).mp (by simp [assembled])
  obtain ⟨raw, -, segmented⟩ := segment_eq_some fits
  rw [assemble_of_segment (by simp) segmented pshdrSum, Option.some.injEq] at assembled
  rw [← assembled]
  exact inetCksum_written (by simp) _ _

/-- The same SYN, whose checksum field makes its checksum zero. -/
theorem assemble_cksum_syn :
    let tcp : TcpAssembler := ⟨1, 2, 0, 0, false, false, false, false, false, false, false, true,
      false, 0, 0, [.mss 1460], [], by decide⟩
    ∃ frame, tcp.assemble 0 = some frame ∧ inetCksum frame 0 = 0 := by
  intro tcp
  obtain ⟨frame, assembled⟩ :=
    Option.isSome_iff_exists.mp ((assemble_isSome_iff tcp 0).mpr (by decide))
  exact ⟨frame, assembled, assemble_cksum tcp 0 assembled⟩

/-- The bytes `assemble` writes determine the segment: two assemblers that write the same bytes,
under any pseudo-header sums, have the same ports, numbers, flags, window, urgent pointer,
options and data. -/
theorem assemble_injective {first second : TcpAssembler} {firstSum secondSum : Nat}
    {frame : List UInt8} (assembledFirst : first.assemble firstSum = some frame)
    (assembledSecond : second.assemble secondSum = some frame) : first = second := by
  have fitsFirst := (assemble_isSome_iff first firstSum).mp (by rw [assembledFirst]; rfl)
  have fitsSecond := (assemble_isSome_iff second secondSum).mp (by rw [assembledSecond]; rfl)
  obtain ⟨rawFirst, packedFirst, segmentedFirst⟩ := segment_eq_some fitsFirst
  obtain ⟨rawSecond, packedSecond, segmentedSecond⟩ := segment_eq_some fitsSecond
  rw [assemble_of_segment (by simp) segmentedFirst] at assembledFirst
  rw [assemble_of_segment (by simp) segmentedSecond] at assembledSecond
  have same := (Option.some.inj assembledFirst).trans (Option.some.inj assembledSecond).symm
  simp only [List.append_assoc] at same
  obtain ⟨sportFirst, dportFirst, seqFirst, ackFirst, shortFirst, winFirst, urpFirst, -⟩ := fitsFirst
  obtain ⟨sportSecond, dportSecond, seqSecond, ackSecond, shortSecond, winSecond, urpSecond, -⟩ :=
    fitsSecond
  -- the fixed header, field by field
  obtain ⟨sport, same⟩ := bytesBE_append_inj same sportFirst sportSecond
  obtain ⟨dport, same⟩ := bytesBE_append_inj same dportFirst dportSecond
  obtain ⟨seq, same⟩ := bytesBE_append_inj same seqFirst seqSecond
  obtain ⟨ack, same⟩ := bytesBE_append_inj same ackFirst ackSecond
  obtain ⟨offset, same⟩ := bytesBE_append_inj same ((offsetByte_lt_iff first).mpr shortFirst)
    ((offsetByte_lt_iff second).mpr shortSecond)
  obtain ⟨flags, same⟩ := bytesBE_append_inj same (flagsByte_lt first) (flagsByte_lt second)
  obtain ⟨win, same⟩ := bytesBE_append_inj same winFirst winSecond
  obtain ⟨-, same⟩ := bytesBE_append_inj same (inetCksum_lt _ _) (inetCksum_lt _ _)
  obtain ⟨urp, same⟩ := bytesBE_append_inj same urpFirst urpSecond
  -- the offset byte gives the header length and NS, so the options end at the same byte
  have nsFirst := first.flagNs.toNat_le
  have nsSecond := second.flagNs.toNat_le
  rw [offsetByte_eq, offsetByte_eq] at offset
  have optionsLength : rawFirst.length = rawSecond.length := by
    rw [length_rawOptions packedFirst, length_rawOptions packedSecond]
    simp only [hlen, tcpHeaderLen] at offset
    omega
  have ns : first.flagNs = second.flagNs := by
    rw [← testBit_toNat_zero first.flagNs, show first.flagNs.toNat = second.flagNs.toNat by omega,
      testBit_toNat_zero]
  obtain ⟨raw, data⟩ := List.append_inj same optionsLength
  have options := rawOptions_injective packedFirst (raw ▸ packedSecond)
  have bits := testBit_flagsByte second
  rw [← flags, testBit_flagsByte first] at bits
  simp only [List.cons.injEq, and_true] at bits
  obtain ⟨crw, ece, urg, ackFlag, psh, rst, syn, fin⟩ := bits
  cases first
  cases second
  congr

/-- The SYN written under the pseudo-header sums 0 and 0xFFFF, which fold to one checksum. -/
theorem assemble_injective_syn :
    let tcp : TcpAssembler := ⟨1, 2, 0, 0, false, false, false, false, false, false, false, true,
      false, 0, 0, [.mss 1460], [], by decide⟩
    ∃ frame, tcp.assemble 0 = some frame ∧ tcp.assemble 0xFFFF = some frame ∧ tcp = tcp := by
  intro tcp
  have folded : tcp.assemble 0 = tcp.assemble 0xFFFF := by decide
  obtain ⟨frame, assembled⟩ :=
    Option.isSome_iff_exists.mp ((assemble_isSome_iff tcp 0).mpr (by decide))
  exact ⟨frame, assembled, folded ▸ assembled, assemble_injective assembled (folded ▸ assembled)⟩

/-- Options longer than 40 bytes pass the constructor's assert when their length is a multiple of
four, but make `assemble` raise: `_hlen << 2` no longer fits the offset byte. -/
theorem assemble_eq_none_of_long_options (tcp : TcpAssembler) (pshdrSum : Nat)
    (long : 40 < (tcp.options.map TcpOpt.len).sum) : tcp.assemble pshdrSum = none := by
  have tooLong : ¬tcp.Fits := fun fits => by
    have short := fits.2.2.2.2.1
    have aligned := tcp.hlen_aligned
    simp only [hlen, tcpHeaderLen] at short aligned
    omega
  simpa using mt (assemble_isSome_iff tcp pshdrSum).mp tooLong

/-- A SYN carrying eleven MSS options: 64 header bytes, which the constructor accepts. -/
theorem assemble_eq_none_of_eleven_mss :
    let tcp : TcpAssembler := ⟨1, 2, 0, 0, false, false, false, false, false, false, false, true,
      false, 0, 0, List.replicate 11 (.mss 1460), [], by decide⟩
    40 < (tcp.options.map TcpOpt.len).sum ∧ tcp.assemble 0 = none :=
  ⟨by decide, assemble_eq_none_of_long_options _ 0 (by decide)⟩

end TcpAssembler

end PyTcp
