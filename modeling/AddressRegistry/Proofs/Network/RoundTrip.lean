import AddressRegistry.Proofs.Network.Reading

/-!
# Networks and their texts

A network is known by its text (`ofChars?_toChars`), and the text of a canonical network parses to that
network (`parse_text`), also with blanks around (`parse_surrounded`). Parsing drops those, and the text of a
network has none (`solid_toChars`). So no two networks have the same text (`text_injective`).
-/

namespace AddressRegistry.Network

/-! ## Reading back -/

open Syntax

variable {family : Family} {rest : List Char}

/-- Address and length of a network are within the bounds of its family, so they make up that network again.
-/
theorem ofParts?_self (n : Network) : ofParts? n.family n.address n.length = some n :=
  dif_pos ⟨n.address_lt, n.length_le⟩

/-- A prefix length reads back behind its slash. -/
theorem readLength_decimal {length most : Nat} (hlength : length ≤ family.width) (hmost : 0 < most)
    (hdigits : family.width < 10 ^ most) :
    readLength family most ('/' :: Printer.decimal length) = some (length, []) := by
  have hread : readNumber 10 most (family.width + 1) (Printer.decimal length ++ [])
      = some (length, []) :=
    readNumber_toDigits (by omega) (by omega) hmost (by omega) (by omega) nofun
  rw [List.append_nil] at hread
  exact hread

/-- A network is read when its address is. -/
theorem readNetwork_of_address {n : Network} {readAddress : List Char → Option (Nat × List Char)}
    {most : Nat} {cs : List Char} (haddress : readAddress cs
      = some (n.address, '/' :: Printer.decimal n.length)) (hmost : 0 < most)
    (hdigits : n.family.width < 10 ^ most) :
    readNetwork n.family readAddress most cs = some (n, []) := by
  unfold readNetwork
  rw [haddress]
  show (readLength n.family most ('/' :: Printer.decimal n.length) >>= _) = _
  rw [readLength_decimal n.length_le hmost hdigits]
  show (ofParts? n.family n.address n.length >>= _) = _
  rw [ofParts?_self]
  rfl

/-- A run of groups is never taken for the start of an IPv4 address. -/
theorem readIPv4_colons (h : EndsRun rest) (gs : List Nat) :
    readIPv4 (Printer.colons gs ++ rest) = none := by
  cases gs with
  | nil => exact readIPv4_eq_none h.endsGroup.head_dropWhile
  | cons g gs =>
    rw [colons_cons, List.append_assoc]
    exact readIPv4_group (h.endsGroup_trail gs) g

/-- An IPv6 address is no IPv4 address. -/
theorem readIPv4_colonForm (h : EndsRun rest) (a : Nat) :
    readIPv4 (Printer.colonForm a ++ rest) = none := by
  unfold Printer.colonForm
  split
  · have hcolon : EndsGroup ("::ffff:".toList ++ Printer.dotted (a % 4294967296) ++ rest) :=
      ⟨_, Or.inl rfl⟩
    exact readIPv4_eq_none hcolon.head_dropWhile
  · unfold Printer.compressed
    dsimp only
    split
    · rw [List.append_assoc, List.append_assoc]
      exact readIPv4_colons ⟨_, Or.inr rfl⟩ _
    · exact readIPv4_colons h _

/-- A network is known by its text. -/
theorem ofChars?_toChars (n : Network) : ofChars? n.toChars = some n := by
  have hend : EndsRun ('/' :: Printer.decimal n.length) := ⟨_, Or.inl rfl⟩
  unfold ofChars? toChars
  cases hfamily : n.family with
  | ipv4 =>
    have haddress : n.address < 4294967296 := by
      have := n.address_lt
      rw [hfamily] at this
      exact this
    have hstops : Stops 10 ('/' :: Printer.decimal n.length) := hend.endsGroup.stops (by omega)
    have hnetwork : readNetwork n.family readIPv4 2 (Printer.dotted n.address ++ '/' ::
        Printer.decimal n.length) = some (n, []) :=
      readNetwork_of_address (readIPv4_dotted haddress hstops) (by omega) (by rw [hfamily]; decide)
    rw [hfamily] at hnetwork
    dsimp only
    rw [hnetwork]
    rfl
  | ipv6 =>
    have haddress : n.address < 2 ^ 128 := by
      have := n.address_lt
      rw [hfamily] at this
      exact this
    have hnetwork : readNetwork n.family readIPv6 3 (Printer.colonForm n.address ++ '/' ::
        Printer.decimal n.length) = some (n, []) :=
      readNetwork_of_address (readIPv6_colonForm haddress hend) (by omega) (by rw [hfamily]; decide)
    have hother : readNetwork .ipv4 readIPv4 2
        (Printer.colonForm n.address ++ '/' :: Printer.decimal n.length) = none := by
      unfold readNetwork
      rw [readIPv4_colonForm hend]
      rfl
    rw [hfamily] at hnetwork
    dsimp only
    rw [hother, hnetwork]
    rfl

/-! ## Blanks -/

/-- A text without blanks. -/
def Solid (cs : List Char) : Prop := ∀ c ∈ cs, Text.isBlank c = false

/-- A text whose characters are all no blanks is solid. Being solid is what keeps the trimming of blanks
away from a network's own text. -/
theorem solid_of_all {cs : List Char} (h : (cs.all fun c => !Text.isBlank c) = true) : Solid cs := by
  intro c hc
  simpa using List.all_eq_true.1 h c hc

/-- Two solid texts in a row are solid. -/
theorem Solid.append {cs cs' : List Char} (h : Solid cs) (h' : Solid cs') : Solid (cs ++ cs') :=
  List.forall_mem_append.2 ⟨h, h'⟩

theorem Solid.cons {c : Char} {cs : List Char} (hc : Text.isBlank c = false) (h : Solid cs) :
    Solid (c :: cs) :=
  List.forall_mem_cons.2 ⟨hc, h⟩

/-- The digits of a number are solid. -/
theorem solid_toDigits {base : Nat} (hbase : 1 < base) (hbase' : base ≤ 16) (n : Nat) :
    Solid (Nat.toDigits base n) := by
  intro c hc
  obtain ⟨d, hd, rfl⟩ := exists_of_mem_toDigits hbase hc
  exact (by decide : ∀ d < 16, Text.isBlank (Nat.digitChar d) = false) d (by omega)

/-- Solid parts joined by a solid separator are solid. -/
theorem solid_joinWith {separator : Char} {parts : List (List Char)}
    (hseparator : Text.isBlank separator = false) (hparts : ∀ cs ∈ parts, Solid cs) :
    Solid (Printer.joinWith separator parts) := by
  fun_induction Printer.joinWith separator parts with
  | case1 => exact nofun
  | case2 cs => exact hparts cs (List.mem_singleton.2 rfl)
  | case3 cs rest _ ih =>
    obtain ⟨hcs, hrest⟩ := List.forall_mem_cons.1 hparts
    exact hcs.append ((ih hrest).cons hseparator)

/-- An IPv4 address is solid. -/
theorem solid_dotted (a : Nat) : Solid (Printer.dotted a) := by
  apply solid_joinWith (by decide)
  intro cs hcs
  obtain ⟨n, -, rfl⟩ := List.mem_map.1 hcs
  exact solid_toDigits (by omega) (by omega) n

/-- A run of groups is solid. -/
theorem solid_colons (gs : List Nat) : Solid (Printer.colons gs) := by
  apply solid_joinWith (by decide)
  intro cs hcs
  obtain ⟨n, -, rfl⟩ := List.mem_map.1 hcs
  exact solid_toDigits (by omega) (by omega) n

/-- An IPv6 address is solid in each of its forms. -/
theorem solid_colonForm (a : Nat) : Solid (Printer.colonForm a) := by
  have hcolons : Solid [':', ':'] := solid_of_all (by decide)
  have hembedded : Solid "::ffff:".toList := solid_of_all (by decide)
  unfold Printer.colonForm
  split
  · exact hembedded.append (solid_dotted _)
  · unfold Printer.compressed
    dsimp only
    split
    · exact ((solid_colons _).append hcolons).append (solid_colons _)
    · exact solid_colons _

/-- The text of a network is solid. -/
theorem solid_toChars (n : Network) : Solid n.toChars := by
  have hlength : Solid ('/' :: Printer.decimal n.length) :=
    (solid_toDigits (by omega) (by omega) n.length).cons (by decide)
  unfold toChars
  cases n.family with
  | ipv4 => exact (solid_dotted _).append hlength
  | ipv6 => exact (solid_colonForm _).append hlength

/-- Trimming takes the blanks around a text without blanks away. -/
theorem Solid.trim_surrounded {before cs after : List Char} (h : Solid cs)
    (hbefore : ∀ c ∈ before, Text.isBlank c = true) (hafter : ∀ c ∈ after, Text.isBlank c = true) :
    Text.trim (before ++ cs ++ after) = cs := by
  have hstop : ∀ c rest, Text.isBlank c = false → (c :: rest).dropWhile Text.isBlank = c :: rest := by
    intro c rest hc
    refine List.dropWhile_cons_of_neg ?_
    rw [hc]
    exact Bool.false_ne_true
  have hsolid : ∀ cs : List Char, Solid cs → cs.dropWhile Text.isBlank = cs := by
    intro cs h
    cases cs with
    | nil => rfl
    | cons c rest => exact hstop c rest (h c List.mem_cons_self)
  unfold Text.trim
  rw [List.append_assoc, List.dropWhile_append_of_pos hbefore]
  cases cs with
  | nil =>
    have hnothing : (after ++ []).dropWhile Text.isBlank = [] := List.dropWhile_append_of_pos hafter
    rw [List.append_nil] at hnothing
    rw [List.nil_append, hnothing]
    rfl
  | cons c rest =>
    rw [List.cons_append, hstop c _ (h c List.mem_cons_self), ← List.cons_append, List.reverse_append,
      List.dropWhile_append_of_pos fun c hc => hafter c (List.mem_reverse.1 hc),
      hsolid _ fun c hc => h c (List.mem_reverse.1 hc), List.reverse_reverse]

/-- The text of a canonical network parses to it, with or without blanks around. -/
theorem parse_surrounded {n : Network} (h : n.IsCanonical) {before after : List Char}
    (hbefore : ∀ c ∈ before, Text.isBlank c = true) (hafter : ∀ c ∈ after, Text.isBlank c = true) :
    parse (String.ofList before ++ n.text ++ String.ofList after) = .ok n := by
  unfold parse text
  rw [String.toList_append, String.toList_append, String.toList_ofList, String.toList_ofList,
    String.toList_ofList, n.solid_toChars.trim_surrounded hbefore hafter, ofChars?_toChars]
  exact congrArg Except.ok h

/-- The text of a canonical network parses to that network. It is the case without blanks of
`parse_surrounded`. -/
theorem parse_text {n : Network} (h : n.IsCanonical) : parse n.text = .ok n := by
  simpa using @parse_surrounded n h [] [] nofun nofun

/-- Different networks have different texts. -/
theorem text_injective : Function.Injective text := by
  intro n m h
  have hchars := congrArg (fun raw => ofChars? raw.toList) h
  simp only [text, String.toList_ofList, ofChars?_toChars] at hchars
  exact Option.some.inj hchars

end AddressRegistry.Network
