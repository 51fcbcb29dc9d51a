import AssocLint.Text.Utf8

/-!
# Bytes that spell characters

Decoding takes exactly the bytes that characters are encoded to, and gives back these characters
(`decode_eq_ok_iff`). A character outside ASCII begins with a byte that tells how many follow and
within which bounds the next one lies (`begin?`). The bounds leave out just what no character is
encoded to, so a character that has begun is completed by the bytes of its encoding and by no others
(`exists_begun`, `utf8EncodeChar_of_completes`).
-/

namespace AssocLint
namespace Utf8

/-- Bytes are the encoding of characters. -/
def Encodes (bytes : List UInt8) (chars : List Char) : Prop :=
  bytes = chars.flatMap String.utf8EncodeChar

/-! ## Characters that have begun -/

/-- Bytes complete a character that has begun: the first of them lies within its bounds, and there
are as many others as it misses, all of which go on with a character. -/
def Completes (begun : Begun) : List UInt8 → Prop
  | [] => False
  | byte :: more =>
    (begun.low ≤ byte ∧ byte ≤ begun.high) ∧ more.length = begun.missing ∧
      ∀ next ∈ more, 0x80 ≤ next ∧ next ≤ 0xbf

theorem Completes.exists_cons {begun : Begun} {tail : List UInt8} (h : Completes begun tail) :
    ∃ byte more, tail = byte :: more ∧ begun.low ≤ byte ∧ byte ≤ begun.high ∧
      more.length = begun.missing ∧ ∀ next ∈ more, 0x80 ≤ next ∧ next ≤ 0xbf := by
  cases tail with
  | nil =>
      cases h
  | cons byte more =>
      obtain ⟨⟨hlow, hhigh⟩, hlength, hmore⟩ := h
      exact ⟨byte, more, rfl, hlow, hhigh, hlength, hmore⟩

/-- The value of the bits that have been read after more bytes. -/
def valueAfter (value : Nat) (bytes : List UInt8) : Nat :=
  bytes.foldl (fun value byte => value * 64 + (byte.toNat - 0x80)) value

theorem valueAfter_cons (value : Nat) (byte : UInt8) (bytes : List UInt8) :
    valueAfter value (byte :: bytes) = valueAfter (valueAfter value [byte]) bytes := by
  simp only [valueAfter, List.foldl_cons, List.foldl_nil]

section Steps

variable {first low high byte : UInt8} (hlow : low ≤ byte) (hhigh : byte ≤ high)
include hlow hhigh

theorem decodeFrom_last (position read value : Nat) (rest : List UInt8) :
    decodeFrom position (some ⟨first, read, 0, low, high, value⟩) (byte :: rest) =
      (decodeFrom (position + read + 2) none rest).map
        (Char.ofNat (valueAfter value [byte]) :: ·) := by
  simp only [decodeFrom, hlow, hhigh, decide_true, Bool.and_true, if_true]
  cases decodeFrom (position + read + 2) none rest <;> rfl

theorem decodeFrom_next (position read missing value : Nat) (rest : List UInt8) :
    decodeFrom position (some ⟨first, read, missing + 1, low, high, value⟩) (byte :: rest) =
      decodeFrom position
        (some ⟨first, read + 1, missing, 0x80, 0xbf, valueAfter value [byte]⟩) rest := by
  simp only [decodeFrom, hlow, hhigh, decide_true, Bool.and_true, if_true]
  rfl

end Steps

/-- Bytes that complete a character are read with it, wherever it stands. -/
theorem decodeFrom_append {begun : Begun} {tail : List UInt8} (h : Completes begun tail)
    (position : Nat) (rest : List UInt8) :
    decodeFrom position (some begun) (tail ++ rest) =
      (decodeFrom (position + begun.read + tail.length + 1) none rest).map
        (Char.ofNat (valueAfter begun.value tail) :: ·) := by
  induction tail generalizing begun with
  | nil =>
      cases h
  | cons byte tail ih =>
      obtain ⟨first, read, missing, low, high, value⟩ := begun
      obtain ⟨⟨hlow, hhigh⟩, hlength, hmore⟩ := h
      dsimp only at hlow hhigh hlength
      cases tail with
      | nil =>
          subst hlength
          exact decodeFrom_last hlow hhigh position read value rest
      | cons next tail =>
          subst hlength
          -- The next byte is bounded like every byte that goes on with a character.
          have hnext : Completes ⟨first, read + 1, tail.length, 0x80, 0xbf, valueAfter value [byte]⟩
              (next :: tail) :=
            ⟨hmore next List.mem_cons_self, rfl,
              fun byte hmem => hmore byte (List.mem_cons_of_mem next hmem)⟩
          have hposition : position + (read + 1) + (next :: tail).length + 1 =
              position + read + (byte :: next :: tail).length + 1 := by
            simp only [List.length_cons]
            omega
          rw [valueAfter_cons, ← hposition, ← ih hnext]
          exact decodeFrom_next hlow hhigh position read tail.length value ((next :: tail) ++ rest)

theorem exists_completes {begun : Begun} {position : Nat} {bytes : List UInt8} {chars : List Char}
    (h : decodeFrom position (some begun) bytes = .ok chars) :
    ∃ tail rest, bytes = tail ++ rest ∧ Completes begun tail := by
  induction bytes generalizing begun with
  | nil =>
      cases h
  | cons byte bytes ih =>
      obtain ⟨first, read, missing, low, high, value⟩ := begun
      rw [decodeFrom] at h
      split at h
      · rename_i hinside
        have hbounds : low ≤ byte ∧ byte ≤ high := by simpa using hinside
        cases missing with
        | zero =>
            exact ⟨[byte], bytes, rfl, hbounds, rfl, List.forall_mem_nil _⟩
        | succ missing =>
            obtain ⟨tail, rest, rfl, hcompletes⟩ := ih h
            refine ⟨byte :: tail, rest, rfl, hbounds, ?_⟩
            cases tail with
            | nil =>
                cases hcompletes
            | cons next tail =>
                obtain ⟨hnext, hlength, hmore⟩ := hcompletes
                exact ⟨congrArg (· + 1) hlength, List.forall_mem_cons.2 ⟨hnext, hmore⟩⟩
      · cases h

/-! ## First bytes -/

section Begin

variable {byte : UInt8}

theorem not_lt_of_le_toNat {bound : UInt8} (h : bound.toNat ≤ byte.toNat) : ¬ byte < bound :=
  UInt8.not_lt.2 (UInt8.le_iff_toNat_le.2 h)

theorem begin?_two (h : 0xc2 ≤ byte.toNat) (h' : byte.toNat < 0xe0) :
    begin? byte = some ⟨byte, 0, 0, 0x80, 0xbf, byte.toNat - 0xc0⟩ := by
  have hstart : ¬ byte < 0xc2 := not_lt_of_le_toNat h
  have htwo : byte < 0xe0 := UInt8.lt_iff_toNat_lt.2 h'
  rw [begin?, if_neg hstart, if_pos htwo]

theorem begin?_three (h : 0xe0 ≤ byte.toNat) (h' : byte.toNat < 0xf0) :
    begin? byte = some ⟨byte, 0, 1, if byte == 0xe0 then 0xa0 else 0x80,
      if byte == 0xed then 0x9f else 0xbf, byte.toNat - 0xe0⟩ := by
  have hstart : ¬ byte < 0xc2 := not_lt_of_le_toNat (Nat.le_trans (by decide) h)
  have htwo : ¬ byte < 0xe0 := not_lt_of_le_toNat h
  have hthree : byte < 0xf0 := UInt8.lt_iff_toNat_lt.2 h'
  rw [begin?, if_neg hstart, if_neg htwo, if_pos hthree]

theorem begin?_four (h : 0xf0 ≤ byte.toNat) (h' : byte.toNat < 0xf5) :
    begin? byte = some ⟨byte, 0, 2, if byte == 0xf0 then 0x90 else 0x80,
      if byte == 0xf4 then 0x8f else 0xbf, byte.toNat - 0xf0⟩ := by
  have hstart : ¬ byte < 0xc2 := not_lt_of_le_toNat (Nat.le_trans (by decide) h)
  have htwo : ¬ byte < 0xe0 := not_lt_of_le_toNat (Nat.le_trans (by decide) h)
  have hthree : ¬ byte < 0xf0 := not_lt_of_le_toNat h
  have hfour : byte < 0xf5 := UInt8.lt_iff_toNat_lt.2 h'
  rw [begin?, if_neg hstart, if_neg htwo, if_neg hthree, if_pos hfour]

theorem begin?_eq_none (h : byte.toNat < 0xc2 ∨ 0xf5 ≤ byte.toNat) : begin? byte = none := by
  rcases h with h | h
  · rw [begin?, if_pos (UInt8.lt_iff_toNat_lt.2 h)]
  · have hnot {bound : UInt8} (hbound : bound.toNat ≤ 0xf5) : ¬ byte < bound :=
      not_lt_of_le_toNat (Nat.le_trans hbound h)
    rw [begin?, if_neg (hnot (by decide)), if_neg (hnot (by decide)), if_neg (hnot (by decide)),
      if_neg (hnot (by decide))]

theorem range_of_begin? {begun : Begun} (h : begin? byte = some begun) :
    0xc2 ≤ byte.toNat ∧ byte.toNat < 0xf5 := by
  rcases Nat.lt_or_ge byte.toNat 0xc2 with hlow | hlow
  · rw [begin?_eq_none (.inl hlow)] at h
    cases h
  · rcases Nat.lt_or_ge byte.toNat 0xf5 with hhigh | hhigh
    · exact ⟨hlow, hhigh⟩
    · rw [begin?_eq_none (.inr hhigh)] at h
      cases h

end Begin

/-! ## Encodings -/

section Bounds

variable {byte key low low' high high' next : UInt8}

theorem toNat_eq_iff_beq : byte.toNat = key.toNat ↔ (byte == key) = true := by
  rw [UInt8.toNat_inj, beq_iff_eq]

/-- A lower bound that is higher for one byte. -/
theorem ite_le_iff (h : low.toNat ≤ low'.toNat) :
    (if byte == key then low' else low) ≤ next ↔
      low.toNat ≤ next.toNat ∧ (byte.toNat = key.toNat → low'.toNat ≤ next.toNat) := by
  rw [toNat_eq_iff_beq, UInt8.le_iff_toNat_le]
  split
  · rename_i hkey
    exact ⟨fun hle => ⟨Nat.le_trans h hle, fun _ => hle⟩, fun hle => hle.2 hkey⟩
  · rename_i hkey
    exact ⟨fun hle => ⟨hle, fun hbyte => absurd hbyte hkey⟩, And.left⟩

/-- An upper bound that is lower for one byte. -/
theorem le_ite_iff (h : high'.toNat ≤ high.toNat) :
    next ≤ (if byte == key then high' else high) ↔
      next.toNat ≤ high.toNat ∧ (byte.toNat = key.toNat → next.toNat ≤ high'.toNat) := by
  rw [toNat_eq_iff_beq, UInt8.le_iff_toNat_le]
  split
  · rename_i hkey
    exact ⟨fun hle => ⟨Nat.le_trans hle h, fun _ => hle⟩, fun hle => hle.2 hkey⟩
  · rename_i hkey
    exact ⟨fun hle => ⟨hle, fun hbyte => absurd hbyte hkey⟩, And.left⟩

end Bounds

theorem toNat_charOfNat {n : Nat} (h : n < 0xd800 ∨ 0xdfff < n ∧ n < 0x110000) :
    (Char.ofNat n).toNat = n := by
  rw [Char.ofNat, dif_pos h]
  rfl

theorem byteOfNat_eq (byte : UInt8) {n : Nat} (h : n = byte.toNat) : UInt8.ofNat n = byte :=
  h ▸ UInt8.ofNat_toNat

/-- A byte that goes on with a character holds six bits. -/
theorem isContinuation (n : Nat) :
    0x80 ≤ UInt8.ofNat (n % 64 + 0x80) ∧ UInt8.ofNat (n % 64 + 0x80) ≤ 0xbf := by
  rw [UInt8.le_iff_toNat_le, UInt8.le_iff_toNat_le, UInt8.toNat_ofNat']
  simp only [UInt8.reduceToNat]
  omega

section Encodings

variable {c : Char}

theorem utf8EncodeChar_one (h : c.toNat < 0x80) :
    String.utf8EncodeChar c = [UInt8.ofNat c.toNat] := by
  rw [String.utf8EncodeChar]
  exact if_pos (Nat.le_of_lt_succ h)

theorem utf8EncodeChar_two (h : 0x80 ≤ c.toNat) (h' : c.toNat < 0x800) :
    String.utf8EncodeChar c =
      [UInt8.ofNat (c.toNat / 64 % 32 + 0xc0), UInt8.ofNat (c.toNat % 64 + 0x80)] := by
  rw [String.utf8EncodeChar]
  exact (if_neg (Nat.not_le.2 h)).trans (if_pos (Nat.le_of_lt_succ h'))

theorem utf8EncodeChar_three (h : 0x800 ≤ c.toNat) (h' : c.toNat < 0x10000) :
    String.utf8EncodeChar c =
      [UInt8.ofNat (c.toNat / 4096 % 16 + 0xe0), UInt8.ofNat (c.toNat / 64 % 64 + 0x80),
        UInt8.ofNat (c.toNat % 64 + 0x80)] := by
  have hone : 0x80 ≤ c.toNat := Nat.le_trans (by decide) h
  rw [String.utf8EncodeChar]
  exact (if_neg (Nat.not_le.2 hone)).trans
    ((if_neg (Nat.not_le.2 h)).trans (if_pos (Nat.le_of_lt_succ h')))

theorem utf8EncodeChar_four (h : 0x10000 ≤ c.toNat) :
    String.utf8EncodeChar c =
      [UInt8.ofNat (c.toNat / 262144 % 8 + 0xf0), UInt8.ofNat (c.toNat / 4096 % 64 + 0x80),
        UInt8.ofNat (c.toNat / 64 % 64 + 0x80), UInt8.ofNat (c.toNat % 64 + 0x80)] := by
  have hone : 0x80 ≤ c.toNat := Nat.le_trans (by decide) h
  have htwo : 0x800 ≤ c.toNat := Nat.le_trans (by decide) h
  rw [String.utf8EncodeChar]
  exact (if_neg (Nat.not_le.2 hone)).trans
    ((if_neg (Nat.not_le.2 htwo)).trans (if_neg (Nat.not_le.2 h)))

/-- The encoding of a character outside ASCII begins it and completes it. -/
theorem exists_begun (h : 0x80 ≤ c.toNat) :
    ∃ byte tail begun, String.utf8EncodeChar c = byte :: tail ∧ begin? byte = some begun ∧
      Completes begun tail ∧ valueAfter begun.value tail = c.toNat := by
  -- No character is a surrogate, which keeps the second byte of three within its bounds.
  have hvalid : c.toNat < 0xd800 ∨ 0xdfff < c.toNat ∧ c.toNat < 0x110000 := c.valid
  by_cases htwo : c.toNat < 0x800
  · have hfirst := UInt8.toNat_ofNat' (n := c.toNat / 64 % 32 + 0xc0)
    have hlast := UInt8.toNat_ofNat' (n := c.toNat % 64 + 0x80)
    refine ⟨_, _, _, utf8EncodeChar_two h htwo, begin?_two (by omega) (by omega),
      ⟨isContinuation c.toNat, rfl, List.forall_mem_nil _⟩, ?_⟩
    simp only [valueAfter, List.foldl_cons, List.foldl_nil, hfirst, hlast]
    omega
  by_cases hthree : c.toNat < 0x10000
  · have hfirst := UInt8.toNat_ofNat' (n := c.toNat / 4096 % 16 + 0xe0)
    have hnext := UInt8.toNat_ofNat' (n := c.toNat / 64 % 64 + 0x80)
    have hlast := UInt8.toNat_ofNat' (n := c.toNat % 64 + 0x80)
    refine ⟨_, _, _, utf8EncodeChar_three (by omega) hthree,
      begin?_three (by omega) (by omega), ⟨⟨?_, ?_⟩, rfl, ?_⟩, ?_⟩
    · rw [ite_le_iff (by decide), hfirst, hnext]
      simp only [UInt8.reduceToNat]
      omega
    · rw [le_ite_iff (by decide), hfirst, hnext]
      simp only [UInt8.reduceToNat]
      omega
    · exact List.forall_mem_singleton.2 (isContinuation c.toNat)
    · simp only [valueAfter, List.foldl_cons, List.foldl_nil, hfirst, hnext, hlast]
      omega
  · have hfirst := UInt8.toNat_ofNat' (n := c.toNat / 262144 % 8 + 0xf0)
    have hnext := UInt8.toNat_ofNat' (n := c.toNat / 4096 % 64 + 0x80)
    have hthird := UInt8.toNat_ofNat' (n := c.toNat / 64 % 64 + 0x80)
    have hlast := UInt8.toNat_ofNat' (n := c.toNat % 64 + 0x80)
    refine ⟨_, _, _, utf8EncodeChar_four (by omega),
      begin?_four (by omega) (by omega), ⟨⟨?_, ?_⟩, rfl, ?_⟩, ?_⟩
    · rw [ite_le_iff (by decide), hfirst, hnext]
      simp only [UInt8.reduceToNat]
      omega
    · rw [le_ite_iff (by decide), hfirst, hnext]
      simp only [UInt8.reduceToNat]
      omega
    · exact List.forall_mem_cons.2
        ⟨isContinuation (c.toNat / 64), List.forall_mem_singleton.2 (isContinuation c.toNat)⟩
    · simp only [valueAfter, List.foldl_cons, List.foldl_nil, hfirst, hnext, hthird, hlast]
      omega

end Encodings

/-- Nothing else than its encoding completes a character. -/
theorem utf8EncodeChar_of_completes {byte : UInt8} {begun : Begun} {tail : List UInt8}
    (hbegin : begin? byte = some begun) (h : Completes begun tail) :
    String.utf8EncodeChar (Char.ofNat (valueAfter begun.value tail)) = byte :: tail := by
  obtain ⟨hfirst, hfirst'⟩ := range_of_begin? hbegin
  obtain ⟨next, more, rfl, hlow, hhigh, hlength, hmore⟩ := h.exists_cons
  by_cases htwo : byte.toNat < 0xe0
  · rw [begin?_two hfirst htwo] at hbegin
    cases hbegin
    rw [List.length_eq_zero_iff.1 hlength]
    rw [UInt8.le_iff_toNat_le] at hlow hhigh
    simp only [UInt8.reduceToNat] at hlow hhigh
    simp only [valueAfter, List.foldl_cons, List.foldl_nil]
    have hc := toNat_charOfNat (n := (byte.toNat - 0xc0) * 64 + (next.toNat - 0x80)) (by omega)
    rw [utf8EncodeChar_two (by omega) (by omega), byteOfNat_eq byte (by omega),
      byteOfNat_eq next (by omega)]
  by_cases hthree : byte.toNat < 0xf0
  · rw [begin?_three (by omega) hthree] at hbegin
    cases hbegin
    obtain ⟨last, rfl⟩ := List.length_eq_one_iff.1 hlength
    obtain ⟨hlast, hlast'⟩ := List.forall_mem_singleton.1 hmore
    rw [UInt8.le_iff_toNat_le] at hlast hlast'
    -- The bounds of the second byte leave out what two bytes spell, and the surrogates.
    obtain ⟨hlow, hlong⟩ := (ite_le_iff (by decide)).1 hlow
    obtain ⟨hhigh, hsurrogate⟩ := (le_ite_iff (by decide)).1 hhigh
    simp only [UInt8.reduceToNat] at hlow hlong hhigh hsurrogate hlast hlast'
    simp only [valueAfter, List.foldl_cons, List.foldl_nil]
    have hc := toNat_charOfNat
      (n := ((byte.toNat - 0xe0) * 64 + (next.toNat - 0x80)) * 64 + (last.toNat - 0x80)) (by omega)
    rw [utf8EncodeChar_three (by omega) (by omega), byteOfNat_eq byte (by omega),
      byteOfNat_eq next (by omega), byteOfNat_eq last (by omega)]
  · rw [begin?_four (by omega) hfirst'] at hbegin
    cases hbegin
    obtain ⟨third, more, rfl⟩ := List.exists_cons_of_length_eq_add_one hlength
    obtain ⟨last, rfl⟩ := List.length_eq_one_iff.1 (Nat.succ.inj hlength)
    obtain ⟨hthird, hlast⟩ := List.forall_mem_cons.1 hmore
    have hlast := List.forall_mem_singleton.1 hlast
    rw [UInt8.le_iff_toNat_le, UInt8.le_iff_toNat_le] at hthird hlast
    -- The bounds of the second byte leave out what three bytes spell, and what no code point is.
    obtain ⟨hlow, hlong⟩ := (ite_le_iff (by decide)).1 hlow
    obtain ⟨hhigh, hbeyond⟩ := (le_ite_iff (by decide)).1 hhigh
    simp only [UInt8.reduceToNat] at hlow hlong hhigh hbeyond hthird hlast
    simp only [valueAfter, List.foldl_cons, List.foldl_nil]
    have hc := toNat_charOfNat
      (n := (((byte.toNat - 0xf0) * 64 + (next.toNat - 0x80)) * 64 + (third.toNat - 0x80)) * 64 +
        (last.toNat - 0x80)) (by omega)
    rw [utf8EncodeChar_four (by omega), byteOfNat_eq byte (by omega),
      byteOfNat_eq next (by omega), byteOfNat_eq third (by omega),
      byteOfNat_eq last (by omega)]

/-! ## Decoding -/

theorem decodeFrom_ascii {byte : UInt8} (h : byte < 0x80) (position : Nat) (rest : List UInt8) :
    decodeFrom position none (byte :: rest) =
      (decodeFrom (position + 1) none rest).map (Char.ofNat byte.toNat :: ·) := by
  rw [decodeFrom, if_pos h]
  cases decodeFrom (position + 1) none rest <;> rfl

theorem decodeFrom_of_begin? {byte : UInt8} {begun : Begun} (h : begin? byte = some begun)
    (position : Nat) (rest : List UInt8) :
    decodeFrom position none (byte :: rest) = decodeFrom position (some begun) rest := by
  have hascii : ¬ byte < 0x80 :=
    not_lt_of_le_toNat (Nat.le_trans (by decide) (range_of_begin? h).1)
  rw [decodeFrom, if_neg hascii, h]

/-- The encoding of a character is read as this character, wherever it stands. -/
theorem exists_decodeFrom_eq_map (c : Char) (position : Nat) (rest : List UInt8) :
    ∃ after, decodeFrom position none (String.utf8EncodeChar c ++ rest) =
      (decodeFrom after none rest).map (c :: ·) := by
  rcases Nat.lt_or_ge c.toNat 0x80 with hascii | hascii
  · have hbyte : (UInt8.ofNat c.toNat).toNat = c.toNat :=
      UInt8.toNat_ofNat_of_lt' (Nat.lt_trans hascii (by decide))
    have hlt : UInt8.ofNat c.toNat < 0x80 := by
      rw [UInt8.lt_iff_toNat_lt, hbyte]
      exact hascii
    refine ⟨position + 1, ?_⟩
    rw [utf8EncodeChar_one hascii]
    refine (decodeFrom_ascii hlt position rest).trans ?_
    rw [hbyte, Char.ofNat_toNat]
  · obtain ⟨byte, tail, begun, hencode, hbegin, hcompletes, hvalue⟩ := exists_begun hascii
    refine ⟨position + begun.read + tail.length + 1, ?_⟩
    rw [hencode]
    refine (decodeFrom_of_begin? hbegin position (tail ++ rest)).trans ?_
    rw [decodeFrom_append hcompletes, hvalue, Char.ofNat_toNat]

theorem decodeFrom_of_encodes {bytes : List UInt8} {chars : List Char} (h : Encodes bytes chars)
    (position : Nat) : decodeFrom position none bytes = .ok chars := by
  subst h
  induction chars generalizing position with
  | nil =>
      rfl
  | cons c chars ih =>
      obtain ⟨after, hdecode⟩ :=
        exists_decodeFrom_eq_map c position (chars.flatMap String.utf8EncodeChar)
      rw [List.flatMap_cons, hdecode, ih after]
      rfl

theorem Encodes.cons {bytes : List UInt8} {chars : List Char} (h : Encodes bytes chars) (c : Char) :
    Encodes (String.utf8EncodeChar c ++ bytes) (c :: chars) :=
  congrArg (String.utf8EncodeChar c ++ ·) h

theorem exists_of_map_eq_ok {f : List Char → List Char} {result : Except Fault (List Char)}
    {chars : List Char} (h : result.map f = .ok chars) :
    ∃ rest, result = .ok rest ∧ f rest = chars := by
  cases result with
  | error fault =>
      cases h
  | ok rest =>
      exact ⟨rest, rfl, Except.ok.inj h⟩

/-- Where a byte outside ASCII is read, it begins the encoding of the first character. -/
theorem exists_of_decodeFrom_eq_ok {byte : UInt8} (hascii : ¬ byte < 0x80) {position : Nat}
    {bytes : List UInt8} {chars : List Char}
    (h : decodeFrom position none (byte :: bytes) = .ok chars) :
    ∃ c after rest more, byte :: bytes = String.utf8EncodeChar c ++ rest ∧ chars = c :: more ∧
      rest.length ≤ bytes.length ∧ decodeFrom after none rest = .ok more := by
  cases hbegin : begin? byte with
  | none =>
      rw [decodeFrom, if_neg hascii, hbegin] at h
      cases h
  | some begun =>
      rw [decodeFrom_of_begin? hbegin] at h
      obtain ⟨tail, rest, rfl, hcompletes⟩ := exists_completes h
      rw [decodeFrom_append hcompletes] at h
      obtain ⟨more, hmore, rfl⟩ := exists_of_map_eq_ok h
      refine ⟨_, _, rest, more, ?_, rfl, ?_, hmore⟩
      · rw [utf8EncodeChar_of_completes hbegin hcompletes]
        rfl
      · rw [List.length_append]
        exact Nat.le_add_left ..

theorem encodes_of_decodeFrom {bytes : List UInt8} {chars : List Char} {position : Nat}
    (h : decodeFrom position none bytes = .ok chars) : Encodes bytes chars := by
  match bytes with
  | [] =>
      cases h
      rfl
  | byte :: bytes =>
      by_cases hascii : byte < 0x80
      · rw [decodeFrom_ascii hascii] at h
        obtain ⟨more, hmore, rfl⟩ := exists_of_map_eq_ok h
        have hlt : byte.toNat < 0x80 := UInt8.lt_iff_toNat_lt.1 hascii
        have hc := toNat_charOfNat (n := byte.toNat) (by omega)
        have hencode := utf8EncodeChar_one (c := Char.ofNat byte.toNat) (by omega)
        rw [hc, byteOfNat_eq byte rfl] at hencode
        have hrest := (encodes_of_decodeFrom hmore).cons (Char.ofNat byte.toNat)
        rwa [hencode] at hrest
      · -- The rest is shorter, as the encoding takes at least the first byte.
        obtain ⟨c, after, rest, more, hbytes, rfl, hshorter, hmore⟩ :=
          exists_of_decodeFrom_eq_ok hascii h
        rw [hbytes]
        exact (encodes_of_decodeFrom hmore).cons c
termination_by bytes.length

/-- Bytes are read as characters exactly when they are the encoding of these. -/
theorem decode_eq_ok_iff {bytes : List UInt8} {chars : List Char} :
    decode bytes = .ok chars ↔ Encodes bytes chars :=
  ⟨encodes_of_decodeFrom, fun h => decodeFrom_of_encodes h 0⟩

/-! ## Text files -/

/-- Bytes are UTF-8: characters are encoded to them. -/
def IsText (bytes : List UInt8) : Prop :=
  ∃ chars, Encodes bytes chars

theorem unifyLines_of_not_mem {text : List Char} (h : '\r' ∉ text) : unifyLines text = text := by
  induction text with
  | nil =>
      rfl
  | cons c rest ih =>
      have hc : c ≠ '\r' := fun hc => h (hc ▸ List.mem_cons_self)
      have hrest := ih fun hmem => h (List.mem_cons_of_mem c hmem)
      rw [unifyLines.eq_def]
      split
      · rename_i heq
        exact absurd (List.cons.inj heq).1 hc
      · rename_i heq
        exact absurd (List.cons.inj heq).1 hc
      · rename_i heq
        obtain ⟨rfl, rfl⟩ := List.cons.inj heq
        rw [hrest]
      · rename_i heq
        cases heq

/-- A text without carriage returns is read back from the bytes that it is encoded to. -/
theorem readLines_encoded {text : String} (h : '\r' ∉ text.toList) :
    readLines (text.toList.flatMap String.utf8EncodeChar) = .ok text := by
  have hdecode : decode (text.toList.flatMap String.utf8EncodeChar) = .ok text.toList :=
    decode_eq_ok_iff.2 rfl
  rw [readLines, hdecode]
  refine congrArg Except.ok ?_
  rw [unifyLines_of_not_mem h, String.ofList_toList]

theorem readLines_of_isText {bytes : List UInt8} (h : IsText bytes) :
    ∃ text, readLines bytes = .ok text := by
  obtain ⟨chars, hchars⟩ := h
  refine ⟨String.ofList (unifyLines chars), ?_⟩
  rw [readLines, decode_eq_ok_iff.2 hchars]
  rfl

theorem readLines_of_not_isText {bytes : List UInt8} (h : ¬ IsText bytes) :
    ∃ fault, readLines bytes = .error fault := by
  cases hdecode : decode bytes with
  | error fault =>
      refine ⟨fault, ?_⟩
      rw [readLines, hdecode]
      rfl
  | ok chars =>
      exact absurd ⟨chars, decode_eq_ok_iff.1 hdecode⟩ h

end Utf8
end AssocLint
