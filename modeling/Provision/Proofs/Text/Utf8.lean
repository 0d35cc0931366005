import Provision.Text.Utf8

/-!
# Encoding and decoding UTF-8

Decoding the encoding of a text gives the characters of the text, one after the other. A
character of one, two, three or four bytes opens with a byte of its own range, and every
continuation byte adds six bits. Bytes that decode to nothing but characters are the encoding of
these.
-/

namespace Provision.Text.Utf8

theorem toNat_byte {n : Nat} (h : n < 256) : (UInt8.ofNat n).toNat = n := by
  rw [UInt8.toNat_ofNat']
  exact Nat.mod_eq_of_lt h

theorem ofNat_val (c : Char) : Char.ofNat c.val.toNat = c := Char.ofNat_toNat c

theorem start_whole {v : Nat} (h : v ≤ 0x7F) : start (UInt8.ofNat v) = .whole (Char.ofNat v) := by
  simp only [start, toNat_byte (show v < 256 by omega)]
  rw [if_pos (by omega)]

theorem start_two {v : Nat} (hlow : 0x80 ≤ v) (hhigh : v ≤ 0x7FF) :
    start (UInt8.ofNat (v / 64 % 32 + 0xC0)) = .opens ⟨0x80, 0xBF, 0, v / 64⟩ := by
  have hbits : v / 64 % 32 = v / 64 := by omega
  simp only [start, hbits, toNat_byte (show v / 64 + 0xC0 < 256 by omega)]
  rw [if_neg (by omega), if_neg (by omega), if_pos (by omega)]
  simp

theorem start_three {v : Nat} (hlow : 0x800 ≤ v) (hhigh : v ≤ 0xFFFF)
    (hscalar : v < 0xD800 ∨ 0xDFFF < v) :
    ∃ low high, start (UInt8.ofNat (v / 4096 % 16 + 0xE0)) = .opens ⟨low, high, 1, v / 4096⟩ ∧
      low.toNat ≤ v / 64 % 64 + 0x80 ∧ v / 64 % 64 + 0x80 ≤ high.toNat := by
  have hbits : v / 4096 % 16 = v / 4096 := by omega
  simp only [start, hbits, toNat_byte (show v / 4096 + 0xE0 < 256 by omega)]
  rw [if_neg (by omega), if_neg (by omega), if_neg (by omega)]
  by_cases hzero : v / 4096 = 0
  · refine ⟨0xA0, 0xBF, ?_, ?_, ?_⟩
    · rw [if_pos (by omega), hzero]
    · simp only [UInt8.reduceToNat]
      omega
    · simp only [UInt8.reduceToNat]
      omega
  · rw [if_neg (by omega)]
    by_cases hsurrogate : v / 4096 = 0xD
    · refine ⟨0x80, 0x9F, ?_, ?_, ?_⟩
      · rw [if_pos (by omega), hsurrogate]
      · simp only [UInt8.reduceToNat]
        omega
      · simp only [UInt8.reduceToNat]
        omega
    · refine ⟨0x80, 0xBF, ?_, ?_, ?_⟩
      · rw [if_neg (by omega), if_pos (by omega), Nat.add_sub_cancel]
      · simp only [UInt8.reduceToNat]
        omega
      · simp only [UInt8.reduceToNat]
        omega

theorem start_four {v : Nat} (hlow : 0x10000 ≤ v) (hhigh : v ≤ 0x10FFFF) :
    ∃ low high, start (UInt8.ofNat (v / 262144 % 8 + 0xF0)) =
        .opens ⟨low, high, 2, v / 262144⟩ ∧
      low.toNat ≤ v / 4096 % 64 + 0x80 ∧ v / 4096 % 64 + 0x80 ≤ high.toNat := by
  have hbits : v / 262144 % 8 = v / 262144 := by omega
  simp only [start, hbits, toNat_byte (show v / 262144 + 0xF0 < 256 by omega)]
  rw [if_neg (by omega), if_neg (by omega), if_neg (by omega), if_neg (by omega),
    if_neg (by omega), if_neg (by omega)]
  by_cases hzero : v / 262144 = 0
  · refine ⟨0x90, 0xBF, ?_, ?_, ?_⟩
    · rw [if_pos (by omega), hzero]
    · simp only [UInt8.reduceToNat]
      omega
    · simp only [UInt8.reduceToNat]
      omega
  · rw [if_neg (by omega)]
    by_cases hlast : v / 262144 = 4
    · refine ⟨0x80, 0x8F, ?_, ?_, ?_⟩
      · rw [if_neg (by omega), if_pos (by omega), hlast]
      · simp only [UInt8.reduceToNat]
        omega
      · simp only [UInt8.reduceToNat]
        omega
    · refine ⟨0x80, 0xBF, ?_, ?_, ?_⟩
      · rw [if_pos (by omega), Nat.add_sub_cancel]
      · simp only [UInt8.reduceToNat]
        omega
      · simp only [UInt8.reduceToNat]
        omega

theorem take_tail {p : Pending} {n : Nat} (hlow : p.low.toNat ≤ n % 64 + 0x80)
    (hhigh : n % 64 + 0x80 ≤ p.high.toNat) :
    p.take (UInt8.ofNat (n % 64 + 0x80)) =
      match p.more with
      | 0 => some (.inl (Char.ofNat (p.bits * 64 + n % 64)))
      | more + 1 => some (.inr ⟨0x80, 0xBF, more, p.bits * 64 + n % 64⟩) := by
  have hbyte := toNat_byte (show n % 64 + 0x80 < 256 by omega)
  simp only [Pending.take, UInt8.le_iff_toNat_le, hbyte, Nat.add_sub_cancel]
  exact (if_pos ⟨hlow, hhigh⟩).trans rfl

theorem decodeFrom_last {low high : UInt8} {bits n : Nat} (bs : Bytes)
    (hlow : low.toNat ≤ n % 64 + 0x80) (hhigh : n % 64 + 0x80 ≤ high.toNat) :
    decodeFrom (some ⟨low, high, 0, bits⟩) (UInt8.ofNat (n % 64 + 0x80) :: bs) =
      some (Char.ofNat (bits * 64 + n % 64)) :: decodeFrom none bs := by
  rw [decodeFrom, take_tail hlow hhigh]

theorem decodeFrom_more {low high : UInt8} {more bits n : Nat} (bs : Bytes)
    (hlow : low.toNat ≤ n % 64 + 0x80) (hhigh : n % 64 + 0x80 ≤ high.toNat) :
    decodeFrom (some ⟨low, high, more + 1, bits⟩) (UInt8.ofNat (n % 64 + 0x80) :: bs) =
      decodeFrom (some ⟨0x80, 0xBF, more, bits * 64 + n % 64⟩) bs := by
  rw [decodeFrom, take_tail hlow hhigh]

theorem decodeFrom_opens {b : UInt8} {p : Pending} (bs : Bytes) (h : start b = .opens p) :
    decodeFrom none (b :: bs) = decodeFrom (some p) bs := by
  simp only [decodeFrom, begins, h, List.nil_append]

theorem decode_encodeChar (c : Char) (bs : Bytes) :
    decode (String.utf8EncodeChar c ++ bs) = some c :: decode bs := by
  have hvalid : c.val.toNat < 0xD800 ∨ 0xDFFF < c.val.toNat ∧ c.val.toNat < 0x110000 := c.valid
  -- The range of a continuation byte that is not the second one is never narrowed.
  have htail (n : Nat) : (0x80 : UInt8).toNat ≤ n % 64 + 0x80 ∧
      n % 64 + 0x80 ≤ (0xBF : UInt8).toNat := by
    simp only [UInt8.reduceToNat]
    omega
  simp only [String.utf8EncodeChar, decode]
  split
  · next hone =>
    simp only [List.singleton_append, decodeFrom, begins, start_whole hone, ofNat_val]
  · next hone =>
    split
    · next htwo =>
      rw [List.cons_append, decodeFrom_opens _ (start_two (by omega) htwo), List.singleton_append,
        decodeFrom_last _ (htail _).1 (htail _).2]
      rw [show c.val.toNat / 64 * 64 + c.val.toNat % 64 = c.val.toNat by omega, ofNat_val]
    · next htwo =>
      split
      · next hthree =>
        obtain ⟨low, high, hstart, hlow, hhigh⟩ :=
          start_three (show 0x800 ≤ c.val.toNat by omega) hthree (by omega)
        rw [List.cons_append, decodeFrom_opens _ hstart, List.cons_append,
          decodeFrom_more _ hlow hhigh, List.singleton_append,
          decodeFrom_last _ (htail _).1 (htail _).2]
        rw [show (c.val.toNat / 4096 * 64 + c.val.toNat / 64 % 64) * 64 + c.val.toNat % 64 =
          c.val.toNat by omega, ofNat_val]
      · next hthree =>
        obtain ⟨low, high, hstart, hlow, hhigh⟩ :=
          start_four (show 0x10000 ≤ c.val.toNat by omega) (by omega)
        rw [List.cons_append, decodeFrom_opens _ hstart, List.cons_append,
          decodeFrom_more _ hlow hhigh, List.cons_append,
          decodeFrom_more _ (htail _).1 (htail _).2, List.singleton_append,
          decodeFrom_last _ (htail _).1 (htail _).2]
        rw [show ((c.val.toNat / 262144 * 64 + c.val.toNat / 4096 % 64) * 64 +
          c.val.toNat / 64 % 64) * 64 + c.val.toNat % 64 = c.val.toNat by omega, ofNat_val]

theorem decode_encode (s : String) : decode (encode s) = s.toList.map some := by
  unfold encode
  induction s.toList with
  | nil => rfl
  | cons c cs ih => rw [List.flatMap_cons, decode_encodeChar, ih, List.map_cons]

theorem text?_encode (s : String) : text? (encode s) = some s := by
  have hall (cs : List Char) : (cs.map some).mapM id = some cs := by
    induction cs with
    | nil => rfl
    | cons c cs ih => simp [ih]
  rw [text?, decode_encode, hall, Option.map_some, String.ofList_toList]

theorem lossy_encode (s : String) : lossy (encode s) = s := by
  simp [lossy, decode_encode, Function.comp_def]

variable {low high b : UInt8} {bits more : Nat} {bs : Bytes} {cs : List Char} {p : Pending}

theorem take_eq (p : Pending) (b : UInt8) :
    p.take b =
      if p.low.toNat ≤ b.toNat ∧ b.toNat ≤ p.high.toNat then
        match p.more with
        | 0 => some (.inl (Char.ofNat (p.bits * 64 + (b.toNat - 0x80))))
        | more + 1 => some (.inr ⟨0x80, 0xBF, more, p.bits * 64 + (b.toNat - 0x80)⟩)
      else none := rfl

theorem none_notMem_map_some {l : List (Option Char)} (h : none :: l = cs.map some) : False := by
  cases cs <;> cases h

theorem exists_next (h : decodeFrom (some p) bs = cs.map some) :
    ∃ b rest, bs = b :: rest ∧ p.low.toNat ≤ b.toNat ∧ b.toNat ≤ p.high.toNat := by
  cases bs with
  | nil => exact (none_notMem_map_some h).elim
  | cons b rest =>
    refine ⟨b, rest, rfl, ?_⟩
    refine Decidable.byContradiction fun hrange => ?_
    rw [decodeFrom, take_eq, if_neg hrange] at h
    exact none_notMem_map_some h

theorem exists_last (h : decodeFrom (some ⟨low, high, 0, bits⟩) bs = cs.map some) :
    ∃ b rest tail, bs = b :: rest ∧ low.toNat ≤ b.toNat ∧ b.toNat ≤ high.toNat ∧
      cs = Char.ofNat (bits * 64 + (b.toNat - 0x80)) :: tail ∧
      decodeFrom none rest = tail.map some := by
  obtain ⟨b, rest, rfl, hlow, hhigh⟩ := exists_next h
  rw [decodeFrom, take_eq, if_pos ⟨hlow, hhigh⟩] at h
  cases cs with
  | nil => cases h
  | cons c tail =>
    obtain ⟨hc, hrest⟩ := List.cons.inj h
    exact ⟨b, rest, tail, rfl, hlow, hhigh, by rw [← Option.some.inj hc], hrest⟩

theorem exists_more (h : decodeFrom (some ⟨low, high, more + 1, bits⟩) bs = cs.map some) :
    ∃ b rest, bs = b :: rest ∧ low.toNat ≤ b.toNat ∧ b.toNat ≤ high.toNat ∧
      decodeFrom (some ⟨0x80, 0xBF, more, bits * 64 + (b.toNat - 0x80)⟩) rest = cs.map some := by
  obtain ⟨b, rest, rfl, hlow, hhigh⟩ := exists_next h
  rw [decodeFrom, take_eq, if_pos ⟨hlow, hhigh⟩] at h
  exact ⟨b, rest, rfl, hlow, hhigh, h⟩

theorem toNat_ofNat {v : Nat} (h : v < 0xD800 ∨ 0xDFFF < v ∧ v < 0x110000) :
    (Char.ofNat v).val.toNat = v := by
  rw [Char.ofNat, dif_pos h]
  rfl

theorem eq_byte {n : Nat} (h : n = b.toNat) : UInt8.ofNat n = b := by
  rw [h, UInt8.ofNat_toNat]

theorem start_cases (b : UInt8) :
    start b = .stray ∨
    b.toNat < 0x80 ∧ start b = .whole (Char.ofNat b.toNat) ∨
    (2 ≤ b.toNat - 0xC0 ∧ 0xC0 ≤ b.toNat ∧ b.toNat < 0xE0 ∧
      start b = .opens ⟨0x80, 0xBF, 0, b.toNat - 0xC0⟩) ∨
    (∃ low high, 0xE0 ≤ b.toNat ∧ b.toNat < 0xF0 ∧
      start b = .opens ⟨low, high, 1, b.toNat - 0xE0⟩ ∧
      ∀ n, low.toNat ≤ n → n ≤ high.toNat → 0x80 ≤ n ∧ n < 0xC0 ∧
        0x20 ≤ (b.toNat - 0xE0) * 64 + (n - 0x80) ∧
        ((b.toNat - 0xE0) * 64 + (n - 0x80) < 0x360 ∨
          0x380 ≤ (b.toNat - 0xE0) * 64 + (n - 0x80))) ∨
    ∃ low high, 0xF0 ≤ b.toNat ∧ b.toNat < 0xF5 ∧
      start b = .opens ⟨low, high, 2, b.toNat - 0xF0⟩ ∧
      ∀ n, low.toNat ≤ n → n ≤ high.toNat → 0x80 ≤ n ∧ n < 0xC0 ∧
        0x10 ≤ (b.toNat - 0xF0) * 64 + (n - 0x80) ∧
        (b.toNat - 0xF0) * 64 + (n - 0x80) < 0x110 := by
  have hbyte := b.toNat_lt
  generalize hstart : start b = s
  unfold start at hstart
  dsimp only at hstart
  split at hstart
  · next hone =>
    subst hstart
    exact .inr (.inl ⟨hone, rfl⟩)
  split at hstart
  · exact .inl hstart.symm
  split at hstart
  · next htwo =>
    subst hstart
    exact .inr (.inr (.inl ⟨by omega, by omega, htwo, rfl⟩))
  split at hstart
  · next hzero =>
    subst hstart
    refine .inr (.inr (.inr (.inl ⟨0xA0, 0xBF, by omega, by omega, by rw [hzero], ?_⟩)))
    simp only [UInt8.reduceToNat]
    omega
  split at hstart
  · next hsurrogate =>
    subst hstart
    refine .inr (.inr (.inr (.inl ⟨0x80, 0x9F, by omega, by omega, by rw [hsurrogate], ?_⟩)))
    simp only [UInt8.reduceToNat]
    omega
  split at hstart
  · subst hstart
    refine .inr (.inr (.inr (.inl ⟨0x80, 0xBF, by omega, by omega, rfl, ?_⟩)))
    simp only [UInt8.reduceToNat]
    omega
  split at hstart
  · next hzero =>
    subst hstart
    refine .inr (.inr (.inr (.inr ⟨0x90, 0xBF, by omega, by omega, by rw [hzero], ?_⟩)))
    simp only [UInt8.reduceToNat]
    omega
  split at hstart
  · subst hstart
    refine .inr (.inr (.inr (.inr ⟨0x80, 0xBF, by omega, by omega, rfl, ?_⟩)))
    simp only [UInt8.reduceToNat]
    omega
  split at hstart
  · next hlast =>
    subst hstart
    refine .inr (.inr (.inr (.inr ⟨0x80, 0x8F, by omega, by omega, by rw [hlast], ?_⟩)))
    simp only [UInt8.reduceToNat]
    omega
  · exact .inl hstart.symm

theorem encodeChar_two {a b : UInt8} (hlow : 2 ≤ a.toNat - 0xC0) (ha : 0xC0 ≤ a.toNat)
    (ha' : a.toNat < 0xE0) (hb : 0x80 ≤ b.toNat) (hb' : b.toNat < 0xC0) :
    String.utf8EncodeChar (Char.ofNat ((a.toNat - 0xC0) * 64 + (b.toNat - 0x80))) = [a, b] := by
  have hval := toNat_ofNat (v := (a.toNat - 0xC0) * 64 + (b.toNat - 0x80)) (by omega)
  simp only [String.utf8EncodeChar, hval]
  rw [if_neg (by omega), if_pos (by omega), eq_byte (b := a) (by omega),
    eq_byte (b := b) (by omega)]

theorem encodeChar_three {a b c : UInt8} (ha : 0xE0 ≤ a.toNat) (ha' : a.toNat < 0xF0)
    (hb : 0x80 ≤ b.toNat) (hb' : b.toNat < 0xC0)
    (hlow : 0x20 ≤ (a.toNat - 0xE0) * 64 + (b.toNat - 0x80))
    (hscalar : (a.toNat - 0xE0) * 64 + (b.toNat - 0x80) < 0x360 ∨
      0x380 ≤ (a.toNat - 0xE0) * 64 + (b.toNat - 0x80))
    (hc : 0x80 ≤ c.toNat) (hc' : c.toNat < 0xC0) :
    String.utf8EncodeChar
      (Char.ofNat (((a.toNat - 0xE0) * 64 + (b.toNat - 0x80)) * 64 + (c.toNat - 0x80))) =
        [a, b, c] := by
  have hval := toNat_ofNat
    (v := ((a.toNat - 0xE0) * 64 + (b.toNat - 0x80)) * 64 + (c.toNat - 0x80)) (by omega)
  simp only [String.utf8EncodeChar, hval]
  rw [if_neg (by omega), if_neg (by omega), if_pos (by omega), eq_byte (b := a) (by omega),
    eq_byte (b := b) (by omega), eq_byte (b := c) (by omega)]

theorem encodeChar_four {a b c d : UInt8} (ha : 0xF0 ≤ a.toNat) (ha' : a.toNat < 0xF5)
    (hb : 0x80 ≤ b.toNat) (hb' : b.toNat < 0xC0)
    (hlow : 0x10 ≤ (a.toNat - 0xF0) * 64 + (b.toNat - 0x80))
    (hhigh : (a.toNat - 0xF0) * 64 + (b.toNat - 0x80) < 0x110)
    (hc : 0x80 ≤ c.toNat) (hc' : c.toNat < 0xC0) (hd : 0x80 ≤ d.toNat) (hd' : d.toNat < 0xC0) :
    String.utf8EncodeChar
      (Char.ofNat ((((a.toNat - 0xF0) * 64 + (b.toNat - 0x80)) * 64 + (c.toNat - 0x80)) * 64 +
        (d.toNat - 0x80))) = [a, b, c, d] := by
  have hval := toNat_ofNat
    (v := (((a.toNat - 0xF0) * 64 + (b.toNat - 0x80)) * 64 + (c.toNat - 0x80)) * 64 +
      (d.toNat - 0x80)) (by omega)
  simp only [String.utf8EncodeChar, hval]
  rw [if_neg (by omega), if_neg (by omega), if_neg (by omega), eq_byte (b := a) (by omega),
    eq_byte (b := b) (by omega), eq_byte (b := c) (by omega), eq_byte (b := d) (by omega)]

theorem exists_encodeChar {a : UInt8} (h : decodeFrom none (a :: bs) = cs.map some) :
    ∃ c tail rest, cs = c :: tail ∧ a :: bs = String.utf8EncodeChar c ++ rest ∧
      decodeFrom none rest = tail.map some := by
  -- The range of a continuation byte that is not the second one.
  have htail {n : Nat} (hlow : (0x80 : UInt8).toNat ≤ n) (hhigh : n ≤ (0xBF : UInt8).toNat) :
      0x80 ≤ n ∧ n < 0xC0 := by
    simp only [UInt8.reduceToNat] at hlow hhigh
    omega
  rcases start_cases a with hstart | ⟨hone, hstart⟩ | ⟨hlow, ha, ha', hstart⟩ |
    ⟨low, high, ha, ha', hstart, hrange⟩ | ⟨low, high, ha, ha', hstart, hrange⟩
  · simp only [decodeFrom, begins, hstart, List.singleton_append] at h
    exact (none_notMem_map_some h).elim
  · simp only [decodeFrom, begins, hstart, List.singleton_append] at h
    cases cs with
    | nil => cases h
    | cons c tail =>
      obtain ⟨hc, hrest⟩ := List.cons.inj h
      obtain rfl := Option.some.inj hc
      refine ⟨_, tail, bs, rfl, ?_, hrest⟩
      have hval := toNat_ofNat (v := a.toNat) (by omega)
      simp only [String.utf8EncodeChar, hval]
      rw [if_pos (by omega), UInt8.ofNat_toNat, List.singleton_append]
  · rw [decodeFrom_opens _ hstart] at h
    obtain ⟨b, rest, tail, rfl, hb, hb', rfl, hrest⟩ := exists_last h
    refine ⟨_, tail, rest, rfl, ?_, hrest⟩
    rw [encodeChar_two hlow ha ha' (htail hb hb').1 (htail hb hb').2]
    rfl
  · rw [decodeFrom_opens _ hstart] at h
    obtain ⟨b, bs, rfl, hb, hb', h⟩ := exists_more h
    obtain ⟨c, rest, tail, rfl, hc, hc', rfl, hrest⟩ := exists_last h
    obtain ⟨hbits, hbits', hlow, hscalar⟩ := hrange b.toNat hb hb'
    refine ⟨_, tail, rest, rfl, ?_, hrest⟩
    rw [encodeChar_three ha ha' hbits hbits' hlow hscalar (htail hc hc').1 (htail hc hc').2]
    rfl
  · rw [decodeFrom_opens _ hstart] at h
    obtain ⟨b, bs, rfl, hb, hb', h⟩ := exists_more h
    obtain ⟨c, bs, rfl, hc, hc', h⟩ := exists_more h
    obtain ⟨d, rest, tail, rfl, hd, hd', rfl, hrest⟩ := exists_last h
    obtain ⟨hbits, hbits', hlow, hhigh⟩ := hrange b.toNat hb hb'
    refine ⟨_, tail, rest, rfl, ?_, hrest⟩
    rw [encodeChar_four ha ha' hbits hbits' hlow hhigh (htail hc hc').1 (htail hc hc').2
      (htail hd hd').1 (htail hd hd').2]
    rfl

theorem eq_encode_of_decode {bs : Bytes} (h : decode bs = cs.map some) :
    bs = encode (String.ofList cs) := by
  rw [encode, String.toList_ofList]
  rw [decode] at h
  induction cs generalizing bs with
  | nil =>
    cases bs with
    | nil => rfl
    | cons a bs =>
      obtain ⟨c, tail, rest, hcs, -, -⟩ := exists_encodeChar h
      cases hcs
  | cons c cs ih =>
    cases bs with
    | nil => cases h
    | cons a bs =>
      obtain ⟨c', tail, rest, hcs, hbytes, hrest⟩ := exists_encodeChar h
      obtain ⟨rfl, rfl⟩ := List.cons.inj hcs
      rw [hbytes, List.flatMap_cons, ← ih hrest]

/-- Bytes decode without a fault exactly if they are the encoding of what they decode to. -/
theorem decode_eq_iff {bs : Bytes} : decode bs = cs.map some ↔ bs = encode (String.ofList cs) := by
  refine ⟨eq_encode_of_decode, ?_⟩
  rintro rfl
  rw [decode_encode, String.toList_ofList]

end Provision.Text.Utf8
