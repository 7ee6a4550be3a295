import PyTcp.Regex
import PyTcp.Ip6Address

namespace PyTcp

/-- `[0-9a-fA-F]`. -/
def isHexDigit (c : Char) : Bool :=
  '0' ≤ c && c ≤ '9' || 'a' ≤ c && c ≤ 'f' || 'A' ≤ c && c ≤ 'F'

/-- `[0-9a-fA-F]{1,4}`. -/
def hexGroup : Re := .rep (.chars isHexDigit) 1 4

/-- `:`. -/
def colon : Re := .chars (· == ':')

/-- `([0-9a-fA-F]{1,4}:)`. -/
def groupColon : Re := .cat hexGroup colon

/-- `(:[0-9a-fA-F]{1,4})`. -/
def colonGroup : Re := .cat colon hexGroup

/-- `IP6_REGEX`, its nine alternatives in the source's order. -/
def ip6Regex : Re :=
  .alt (.cat (.rep groupColon 7 7) hexGroup) <|
  .alt (.cat (.rep groupColon 1 7) colon) <|
  .alt (.cat (.cat (.rep groupColon 1 6) colon) hexGroup) <|
  .alt (.cat (.rep groupColon 1 5) (.rep colonGroup 1 2)) <|
  .alt (.cat (.rep groupColon 1 4) (.rep colonGroup 1 3)) <|
  .alt (.cat (.rep groupColon 1 3) (.rep colonGroup 1 4)) <|
  .alt (.cat (.rep groupColon 1 2) (.rep colonGroup 1 5)) <|
  .alt (.cat groupColon (.rep colonGroup 1 6)) <|
  .cat colon (.alt (.rep colonGroup 1 7) colon)

/-- `Ip6Address(address)` for a `str`: the `IP6_REGEX` search, then `socket.inet_pton`, which is
the parameter `inetPton` (`none` for its `OSError`), and its sixteen bytes joined as the bytes
form joins them. Every other outcome raises `Ip6AddressFormatError`, the `none` here. -/
def Ip6Address.ofText (inetPton : String → Option (List UInt8)) (address : String) :
    Option Ip6Address :=
  if search ip6Regex address.toList then (inetPton address).bind Ip6Address.ofBytes else none

/-- One to four hex digits, what `[0-9a-fA-F]{1,4}` accepts. -/
def HexGroup (group : List Char) : Prop :=
  group ≠ [] ∧ group.length ≤ 4 ∧ ∀ c ∈ group, isHexDigit c = true

instance : DecidablePred HexGroup := fun _ => inferInstanceAs (Decidable (_ ∧ _ ∧ _))

/-- Eight hex groups joined by single colons, what the first alternative
`([0-9a-fA-F]{1,4}:){7,7}[0-9a-fA-F]{1,4}` accepts. -/
def EightGroups (text : List Char) : Prop :=
  ∃ (groups : List (List Char)) (last : List Char), groups.length = 7 ∧ (∀ group ∈ groups, HexGroup group) ∧ HexGroup last ∧
    (groups.map (· ++ [':'])).flatten ++ last = text

section Pieces

theorem length_flatten_of_singletons {parts : List (List Char)}
    (single : ∀ part ∈ parts, ∃ c, part = [c]) : parts.flatten.length = parts.length := by
  induction parts with
  | nil => rfl
  | cons part parts ih =>
    obtain ⟨c, rfl⟩ := single part (List.mem_cons_self _ _)
    simp [ih fun other member => single other (List.mem_cons_of_mem _ member)]

theorem flatten_map_singleton (text : List Char) : (text.map fun c => [c]).flatten = text := by
  induction text with
  | nil => rfl
  | cons c text ih => simp [ih]

variable {text : List Char}

theorem fullmatch_hexGroup : hexGroup.fullmatch text = true ↔ HexGroup text := by
  simp only [hexGroup, Re.fullmatch_rep, Re.fullmatch_chars]
  constructor
  · rintro ⟨parts, atLeast, atMost, each, rfl⟩
    have length := length_flatten_of_singletons fun part member =>
      (each part member).imp fun _ digit => digit.1
    refine ⟨List.ne_nil_of_length_pos (by omega), by omega, fun c member => ?_⟩
    obtain ⟨part, inParts, inPart⟩ := List.mem_flatten.mp member
    obtain ⟨d, rfl, hex⟩ := each part inParts
    exact List.mem_singleton.mp inPart ▸ hex
  · rintro ⟨nonempty, atMost, hex⟩
    refine ⟨text.map fun c => [c], ?_, by simpa using atMost, fun part member => ?_,
      flatten_map_singleton text⟩
    · simpa [Nat.one_le_iff_ne_zero] using nonempty
    · obtain ⟨c, inText, rfl⟩ := List.mem_map.mp member
      exact ⟨c, rfl, hex c inText⟩

theorem fullmatch_colon : colon.fullmatch text = true ↔ text = [':'] := by
  simp only [colon, Re.fullmatch_chars, beq_iff_eq, exists_eq_right]

theorem fullmatch_groupColon :
    groupColon.fullmatch text = true ↔ ∃ group, HexGroup group ∧ group ++ [':'] = text := by
  simp only [groupColon, Re.fullmatch_cat, fullmatch_hexGroup, fullmatch_colon]
  constructor
  · rintro ⟨group, _, rfl, hex, rfl⟩
    exact ⟨group, hex, rfl⟩
  · rintro ⟨group, hex, rfl⟩
    exact ⟨group, [':'], rfl, hex, rfl⟩

theorem fullmatch_colonGroup :
    colonGroup.fullmatch text = true ↔ ∃ group, HexGroup group ∧ ':' :: group = text := by
  simp only [colonGroup, Re.fullmatch_cat, fullmatch_hexGroup, fullmatch_colon]
  constructor
  · rintro ⟨_, group, rfl, rfl, hex⟩
    exact ⟨group, hex, rfl⟩
  · rintro ⟨group, hex, rfl⟩
    exact ⟨[':'], group, rfl, rfl, hex⟩

/-- A run of `([0-9a-fA-F]{1,4}:)` ends with a colon. -/
theorem endsColon_of_groupColons {lo hi : Nat} (some : 1 ≤ lo)
    (accepted : (Re.rep groupColon lo hi).fullmatch text = true) : ∃ front, text = front ++ [':'] := by
  obtain ⟨parts, atLeast, -, each, rfl⟩ := Re.fullmatch_rep.mp accepted
  obtain ⟨init, last, rfl⟩ := (List.eq_nil_or_concat parts).resolve_left fun empty => by
    rw [empty, List.length_nil] at atLeast
    omega
  obtain ⟨group, -, rfl⟩ := fullmatch_groupColon.mp (each last (by simp))
  exact ⟨init.flatten ++ group, by simp⟩

/-- A run of `(:[0-9a-fA-F]{1,4})` starts with a colon. -/
theorem startsColon_of_colonGroups {lo hi : Nat} (some : 1 ≤ lo)
    (accepted : (Re.rep colonGroup lo hi).fullmatch text = true) : ∃ back, text = ':' :: back := by
  obtain ⟨parts, atLeast, -, each, rfl⟩ := Re.fullmatch_rep.mp accepted
  obtain _ | ⟨first, rest⟩ := parts
  · rw [List.length_nil] at atLeast
    omega
  obtain ⟨group, -, rfl⟩ := fullmatch_colonGroup.mp (each first (List.mem_cons_self _ _))
  exact ⟨group ++ rest.flatten, by simp⟩

/-- A part that ends with a colon, then one that starts with a colon: `::`. -/
theorem colons_infix_of_cut {front back : List Char} (ends : ∃ rest, front = rest ++ [':'])
    (starts : ∃ rest, back = ':' :: rest) : [':', ':'] <:+: front ++ back := by
  obtain ⟨⟨before, rfl⟩, ⟨after, rfl⟩⟩ := And.intro ends starts
  exact ⟨before, after, by simp⟩

/-- What the first alternative accepts, and nothing else, is eight groups. -/
theorem fullmatch_eightGroups :
    (Re.cat (.rep groupColon 7 7) hexGroup).fullmatch text = true ↔ EightGroups text := by
  simp only [Re.fullmatch_cat, Re.fullmatch_rep, fullmatch_hexGroup]
  constructor
  · rintro ⟨_, last, rfl, ⟨parts, atLeast, atMost, each, rfl⟩, lastHex⟩
    choose group hex written using fun part member => fullmatch_groupColon.mp (each part member)
    have rebuilt : (parts.attach.map fun part => group part.1 part.2).map (· ++ [':']) = parts := by
      rw [List.map_map]
      conv_rhs => rw [← List.attach_map_subtype_val parts]
      exact List.map_congr_left fun part _ => written part.1 part.2
    refine ⟨parts.attach.map fun part => group part.1 part.2, last,
      (by simpa using Nat.le_antisymm atMost atLeast), ?_, lastHex, by rw [rebuilt]⟩
    intro g member
    obtain ⟨part, -, rfl⟩ := List.mem_map.mp member
    exact hex part.1 part.2
  · rintro ⟨groups, last, length, hex, lastHex, rfl⟩
    refine ⟨_, last, rfl, ⟨groups.map (· ++ [':']), by simp [length], by simp [length],
      fun part member => ?_, rfl⟩, lastHex⟩
    obtain ⟨group, inGroups, rfl⟩ := List.mem_map.mp member
    exact fullmatch_groupColon.mpr ⟨group, hex group inGroups, rfl⟩

/-- Eight groups hold seven colons. -/
theorem seven_le_count_of_eightGroups (eight : EightGroups text) : 7 ≤ text.count ':' := by
  obtain ⟨groups, last, length, -, -, rfl⟩ := eight
  have joined : ∀ groups : List (List Char),
      groups.length ≤ ((groups.map (· ++ [':'])).flatten).count ':' := by
    intro groups
    induction groups with
    | nil => exact Nat.zero_le _
    | cons group groups ih =>
      simp only [List.map_cons, List.flatten_cons, List.count_append, List.length_cons,
        List.count_singleton_self]
      omega
  rw [List.count_append]
  exact length ▸ (joined groups).trans (Nat.le_add_right _ _)

end Pieces

/-- Every string `IP6_REGEX` accepts whole holds `::` or is eight groups. -/
theorem colons_or_eightGroups_of_fullmatch {piece : List Char}
    (accepted : ip6Regex.fullmatch piece = true) : [':', ':'] <:+: piece ∨ EightGroups piece := by
  simp only [ip6Regex, Re.fullmatch_alt] at accepted
  rcases accepted with full | accepted
  · exact .inr (fullmatch_eightGroups.mp full)
  left
  -- every other alternative ends one part with a colon and starts the next with one
  rcases accepted with run | run | run | run | run | run | run | run <;>
    obtain ⟨front, back, rfl, frontAccepted, backAccepted⟩ := Re.fullmatch_cat.mp run
  · exact colons_infix_of_cut (endsColon_of_groupColons le_rfl frontAccepted)
      ⟨[], fullmatch_colon.mp backAccepted⟩
  · obtain ⟨groups, colonPart, rfl, groupsAccepted, colonAccepted⟩ :=
      Re.fullmatch_cat.mp frontAccepted
    exact (colons_infix_of_cut (endsColon_of_groupColons le_rfl groupsAccepted)
      ⟨[], fullmatch_colon.mp colonAccepted⟩).trans (List.prefix_append _ back).isInfix
  on_goal 5 =>
    exact colons_infix_of_cut ((fullmatch_groupColon.mp frontAccepted).imp fun _ hex => hex.2.symm)
      (startsColon_of_colonGroups le_rfl backAccepted)
  on_goal 5 =>
    exact colons_infix_of_cut ⟨[], fullmatch_colon.mp frontAccepted⟩
      ((Re.fullmatch_alt.mp backAccepted).elim (startsColon_of_colonGroups le_rfl)
        fun single => ⟨[], fullmatch_colon.mp single⟩)
  all_goals
    exact colons_infix_of_cut (endsColon_of_groupColons le_rfl frontAccepted)
      (startsColon_of_colonGroups le_rfl backAccepted)

/-- `re.search(IP6_REGEX, text)` finds a match exactly when the text holds `::`, or eight groups
of one to four hex digits joined by single colons: the search is not anchored, so the pattern
checks no more than that. -/
theorem search_ip6Regex_iff (text : List Char) :
    search ip6Regex text = true ↔
      [':', ':'] <:+: text ∨ ∃ piece, piece <:+: text ∧ EightGroups piece := by
  rw [search_iff]
  constructor
  · rintro ⟨piece, inText, accepted⟩
    exact (colons_or_eightGroups_of_fullmatch accepted).imp (·.trans inText)
      fun eight => ⟨piece, inText, eight⟩
  · rintro (colons | ⟨piece, inText, eight⟩)
    · exact ⟨_, colons, by decide⟩
    · exact ⟨piece, inText, Re.fullmatch_alt.mpr (.inl (fullmatch_eightGroups.mpr eight))⟩

/-- `Ip6Address(text)` refuses every text with no `::` and fewer than seven colons, whatever
`socket.inet_pton` makes of it; the full form with an IPv4 tail, `x:x:x:x:x:x:d.d.d.d`, is one. -/
theorem Ip6Address.ofText_eq_none_of_colons (inetPton : String → Option (List UInt8))
    {text : String} (uncompressed : ¬[':', ':'] <:+: text.toList)
    (fewColons : text.toList.count ':' < 7) : Ip6Address.ofText inetPton text = none := by
  rw [Ip6Address.ofText, if_neg]
  intro found
  rcases (search_ip6Regex_iff text.toList).mp found with colons | ⟨piece, inText, eight⟩
  · exact uncompressed colons
  · have seven := (seven_le_count_of_eightGroups eight).trans (inText.count_le ':')
    omega

/-- `Ip6Address("1:2:3:4:5:6:1.2.3.4")` raises, even under an `inet_pton` that reads every
text. -/
theorem Ip6Address.ofText_refuses_ipv4_tail :
    ¬[':', ':'] <:+: "1:2:3:4:5:6:1.2.3.4".toList ∧ "1:2:3:4:5:6:1.2.3.4".toList.count ':' < 7 ∧
      Ip6Address.ofText (fun _ => some (List.replicate 16 0)) "1:2:3:4:5:6:1.2.3.4" = none :=
  ⟨by decide, by decide, Ip6Address.ofText_eq_none_of_colons _ (by decide) (by decide)⟩

end PyTcp
