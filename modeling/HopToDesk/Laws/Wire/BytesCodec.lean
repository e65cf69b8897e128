import HopToDesk.Wire.BytesCodec

/-!
# The frame codec's laws

Three layers. The header: `encode` writes one of four headers, and `decodeHead` reads each back to
its own width and the body's length (`decode_encode`, one frame at the front of a buffer). The
machine: `decode` with its loop is an incremental decoder (`decoder`) whose requests suspend
without loss (`decoder_suspends`), for any bytes and any packet limit, so the chunks a stream is
cut into do not matter. The stream: what `encodeAll` wrote decodes to the payloads it was given,
however it is cut, and no stream at all makes the codec deliver a frame over its limit.
-/

set_option autoImplicit false

namespace HopToDesk.Wire.BytesCodec

open Kit.Incremental

/-! ## The header -/

theorem headLen_eq (src : Bytes) : headLen src = byteAt src 0 % 4 + 1 := by
  have h4 : (src.getD 0 0 &&& 3).toNat = (src.getD 0 0).toNat % 4 := by
    rw [UInt8.toNat_and]
    exact Nat.and_two_pow_sub_one_eq_mod _ 2
  have hlt : (src.getD 0 0).toNat % 4 < 4 := Nat.mod_lt _ (by omega)
  rw [headLen, UInt8.toNat_add, h4, byteAt, UInt8.toNat_one]
  omega

theorem byteAt_lt (src : Bytes) (i : Nat) : byteAt src i < 256 := UInt8.toNat_lt _

/-- Bits above a small number are added to it. -/
theorem or_shiftLeft (a b i : Nat) (h : a < 2 ^ i) : a ||| b <<< i = a + b * 2 ^ i := by
  rw [Nat.or_comm, ← Nat.shiftLeft_add_eq_or_of_lt h b, Nat.shiftLeft_eq, Nat.add_comm]

/-- The header's value as a sum: each byte it takes part in, at its own weight. -/
theorem headValue_eq (src : Bytes) :
    headValue src = byteAt src 0 +
      (if 1 < headLen src then byteAt src 1 * 256 else 0) +
      (if 2 < headLen src then byteAt src 2 * 65536 else 0) +
      (if 3 < headLen src then byteAt src 3 * 16777216 else 0) := by
  have h0 := byteAt_lt src 0
  have h1 := byteAt_lt src 1
  have h2 := byteAt_lt src 2
  have one : byteAt src 0 ||| byteAt src 1 <<< 8 = byteAt src 0 + byteAt src 1 * 256 :=
    or_shiftLeft _ _ 8 (by omega)
  have two (a : Nat) (ha : a < 65536) : a ||| byteAt src 2 <<< 16 = a + byteAt src 2 * 65536 :=
    or_shiftLeft _ _ 16 (by omega)
  have three (a : Nat) (ha : a < 16777216) :
      a ||| byteAt src 3 <<< 24 = a + byteAt src 3 * 16777216 := or_shiftLeft _ _ 24 (by omega)
  unfold headValue
  dsimp only
  -- a wider header has every byte of a narrower one
  by_cases c1 : 1 < headLen src
  · rw [if_pos c1, if_pos c1, one]
    by_cases c2 : 2 < headLen src
    · rw [if_pos c2, if_pos c2, two _ (by omega)]
      by_cases c3 : 3 < headLen src
      · rw [if_pos c3, if_pos c3, three _ (by omega)]
      · rw [if_neg c3, if_neg c3, Nat.add_zero]
    · rw [if_neg c2, if_neg c2, if_neg (by omega), if_neg (by omega)]
      rfl
  · rw [if_neg c1, if_neg c1, if_neg (by omega), if_neg (by omega), if_neg (by omega),
      if_neg (by omega)]
    rfl

/-- A header for a body of `n` bytes: as wide as its first byte says, and worth `n`. -/
structure IsHeader (hdr : Bytes) (n : Nat) : Prop where
  width : ∀ rest, headLen (hdr ++ rest) = hdr.length
  value : ∀ rest, headValue (hdr ++ rest) >>> 2 = n

/-- The four headers `encode` writes. -/
def header (n : Nat) : Bytes :=
  if n ≤ 0x3F then putU8 [] (UInt8.ofNat (n <<< 2))
  else if n ≤ 0x3FFF then putU16Le [] (UInt16.ofNat (n <<< 2) ||| 0x1)
  else if n ≤ 0x3FFFFF then
    let h := UInt32.ofNat (n <<< 2) ||| 0x2
    putU8 (putU16Le [] (h &&& 0xFFFF).toUInt16) (h >>> 16).toUInt8
  else putU32Le [] (UInt32.ofNat (n <<< 2) ||| 0x3)

/-- Shifting the length up by two leaves room for the width: `|` is `+` there. -/
theorem shiftLeft_two_or (n t : Nat) (h : t < 4) : n <<< 2 ||| t = 4 * n + t := by
  rw [← Nat.shiftLeft_add_eq_or_of_lt (by simpa using h), Nat.shiftLeft_eq]
  omega

theorem isHeader_one (b : UInt8) (n : Nat) (hb : b.toNat = 4 * n) : IsHeader [b] n := by
  have h0 (rest : Bytes) : byteAt ([b] ++ rest) 0 = b.toNat := rfl
  have hw (rest : Bytes) : headLen ([b] ++ rest) = 1 := by rw [headLen_eq, h0]; omega
  refine ⟨hw, fun rest => ?_⟩
  rw [headValue_eq, hw, h0, hb, Nat.shiftRight_eq_div_pow]
  simp

theorem isHeader_two (b c : UInt8) (n : Nat) (hv : b.toNat + c.toNat * 256 = 4 * n + 1) :
    IsHeader [b, c] n := by
  have h0 (rest : Bytes) : byteAt ([b, c] ++ rest) 0 = b.toNat := rfl
  have h1 (rest : Bytes) : byteAt ([b, c] ++ rest) 1 = c.toNat := rfl
  have hw (rest : Bytes) : headLen ([b, c] ++ rest) = 2 := by rw [headLen_eq, h0]; omega
  refine ⟨hw, fun rest => ?_⟩
  rw [headValue_eq, hw, h0, h1, Nat.shiftRight_eq_div_pow]
  simp only [Nat.lt_irrefl, Nat.one_lt_ofNat, Nat.reduceLT, ↓reduceIte, Nat.add_zero]
  omega

theorem isHeader_three (b c d : UInt8) (n : Nat)
    (hv : b.toNat + c.toNat * 256 + d.toNat * 65536 = 4 * n + 2) : IsHeader [b, c, d] n := by
  have h0 (rest : Bytes) : byteAt ([b, c, d] ++ rest) 0 = b.toNat := rfl
  have h1 (rest : Bytes) : byteAt ([b, c, d] ++ rest) 1 = c.toNat := rfl
  have h2 (rest : Bytes) : byteAt ([b, c, d] ++ rest) 2 = d.toNat := rfl
  have hw (rest : Bytes) : headLen ([b, c, d] ++ rest) = 3 := by rw [headLen_eq, h0]; omega
  refine ⟨hw, fun rest => ?_⟩
  rw [headValue_eq, hw, h0, h1, h2, Nat.shiftRight_eq_div_pow]
  simp only [Nat.lt_irrefl, Nat.one_lt_ofNat, Nat.reduceLT, ↓reduceIte, Nat.add_zero]
  omega

theorem isHeader_four (b c d e : UInt8) (n : Nat)
    (hv : b.toNat + c.toNat * 256 + d.toNat * 65536 + e.toNat * 16777216 = 4 * n + 3) :
    IsHeader [b, c, d, e] n := by
  have h0 (rest : Bytes) : byteAt ([b, c, d, e] ++ rest) 0 = b.toNat := rfl
  have h1 (rest : Bytes) : byteAt ([b, c, d, e] ++ rest) 1 = c.toNat := rfl
  have h2 (rest : Bytes) : byteAt ([b, c, d, e] ++ rest) 2 = d.toNat := rfl
  have h3 (rest : Bytes) : byteAt ([b, c, d, e] ++ rest) 3 = e.toNat := rfl
  have hw (rest : Bytes) : headLen ([b, c, d, e] ++ rest) = 4 := by rw [headLen_eq, h0]; omega
  refine ⟨hw, fun rest => ?_⟩
  rw [headValue_eq, hw, h0, h1, h2, h3, Nat.shiftRight_eq_div_pow]
  simp only [Nat.one_lt_ofNat, Nat.reduceLT, ↓reduceIte]
  omega

/-! The bytes of a little-endian number, as quotients. -/

theorem toUInt8_shiftRight_8 (v : UInt16) : (v >>> 8).toUInt8.toNat = v.toNat / 256 % 256 := by
  rw [UInt16.toNat_toUInt8, UInt16.toNat_shiftRight, Nat.shiftRight_eq_div_pow]
  rfl

theorem toUInt8_shiftRight_8' (v : UInt32) : (v >>> 8).toUInt8.toNat = v.toNat / 256 % 256 := by
  rw [UInt32.toNat_toUInt8, UInt32.toNat_shiftRight, Nat.shiftRight_eq_div_pow]
  rfl

theorem toUInt8_shiftRight_16 (v : UInt32) :
    (v >>> 16).toUInt8.toNat = v.toNat / 65536 % 256 := by
  rw [UInt32.toNat_toUInt8, UInt32.toNat_shiftRight, Nat.shiftRight_eq_div_pow]
  rfl

theorem toUInt8_shiftRight_24 (v : UInt32) :
    (v >>> 24).toUInt8.toNat = v.toNat / 16777216 % 256 := by
  rw [UInt32.toNat_toUInt8, UInt32.toNat_shiftRight, Nat.shiftRight_eq_div_pow]
  rfl

theorem toUInt16_low (v : UInt32) : (v &&& 0xFFFF).toUInt16.toNat = v.toNat % 65536 := by
  rw [UInt32.toNat_toUInt16, UInt32.toNat_and]
  show (v.toNat &&& 2 ^ 16 - 1) % 2 ^ 16 = _
  rw [Nat.and_two_pow_sub_one_eq_mod]
  omega

/-- Each of the four headers stands for the length it was written for. -/
theorem isHeader_header (n : Nat) (h : n ≤ 0x3FFFFFFF) : IsHeader (header n) n := by
  have hs : n <<< 2 = 4 * n := by rw [Nat.shiftLeft_eq]; omega
  unfold header
  split_ifs with h1 h2 h3
  · refine isHeader_one _ n ?_
    rw [UInt8.toNat_ofNat', hs]
    omega
  · have hv : (UInt16.ofNat (n <<< 2) ||| 0x1).toNat = 4 * n + 1 := by
      rw [UInt16.toNat_or, UInt16.toNat_ofNat', Nat.mod_eq_of_lt (by omega)]
      exact shiftLeft_two_or n 1 (by omega)
    refine isHeader_two _ _ n ?_
    rw [UInt16.toNat_toUInt8, toUInt8_shiftRight_8, hv]
    omega
  · have hv : (UInt32.ofNat (n <<< 2) ||| 0x2).toNat = 4 * n + 2 := by
      rw [UInt32.toNat_or, UInt32.toNat_ofNat', Nat.mod_eq_of_lt (by omega)]
      exact shiftLeft_two_or n 2 (by omega)
    refine isHeader_three _ _ _ n ?_
    rw [UInt16.toNat_toUInt8, toUInt8_shiftRight_8, toUInt16_low, toUInt8_shiftRight_16, hv]
    omega
  · have hv : (UInt32.ofNat (n <<< 2) ||| 0x3).toNat = 4 * n + 3 := by
      rw [UInt32.toNat_or, UInt32.toNat_ofNat', Nat.mod_eq_of_lt (by omega)]
      exact shiftLeft_two_or n 3 (by omega)
    refine isHeader_four _ _ _ _ n ?_
    rw [UInt32.toNat_toUInt8, toUInt8_shiftRight_8', toUInt8_shiftRight_16,
      toUInt8_shiftRight_24, hv]
    omega

/-! ## The machine -/

theorem byteAt_append {src : Bytes} {i : Nat} (h : i < src.length) (x : Bytes) :
    byteAt (src ++ x) i = byteAt src i := by
  rw [byteAt, byteAt, List.getD_eq_getElem?_getD, List.getD_eq_getElem?_getD,
    List.getElem?_append_left h]

theorem headLen_append {src : Bytes} (h : src ≠ []) (x : Bytes) :
    headLen (src ++ x) = headLen src := by
  rw [headLen_eq, headLen_eq, byteAt_append (List.length_pos_iff.mpr h)]

theorem headLen_pos (src : Bytes) : 0 < headLen src := by
  rw [headLen_eq]
  exact Nat.succ_pos _

/-- A header that is all there is not changed by what follows it. -/
theorem headValue_append {src : Bytes} (h : headLen src ≤ src.length) (x : Bytes) :
    headValue (src ++ x) = headValue src := by
  have hpos := headLen_pos src
  have hne : src ≠ [] := List.length_pos_iff.mp (by omega)
  have at' (i w : Nat) :
      (if i < headLen src then byteAt (src ++ x) i * w else 0) =
        if i < headLen src then byteAt src i * w else 0 := by
    split_ifs with hi
    · rw [byteAt_append (by omega)]
    · rfl
  rw [headValue_eq, headValue_eq, headLen_append hne, byteAt_append (by omega), at', at', at']

/-- What a call of `decodeHead` does: it waits, and moves nothing; or the length is over the
limit; or the header is all there, and it passes it. -/
theorem decodeHead_cases (self : BytesCodec) (src : Bytes) :
    ((src = [] ∨ src.length < headLen src) ∧ self.decodeHead src = (.ok none, src)) ∨
    (src ≠ [] ∧ headLen src ≤ src.length ∧
      ((self.maxPacketLength < headValue src >>> 2 ∧
        self.decodeHead src = (.error ⟨.invalidData, "Too big packet"⟩, src)) ∨
      (headValue src >>> 2 ≤ self.maxPacketLength ∧
        self.decodeHead src = (.ok (some (headValue src >>> 2)), src.drop (headLen src))))) := by
  unfold decodeHead
  by_cases he : src = []
  · exact .inl ⟨.inl he, by simp [he]⟩
  · have he' : ¬ src.isEmpty = true := by simpa using he
    by_cases hl : src.length < headLen src
    · exact .inl ⟨.inr hl, by rw [if_neg he', if_pos hl]⟩
    · refine .inr ⟨he, Nat.not_lt.mp hl, ?_⟩
      rw [if_neg he', if_neg hl]
      by_cases hm : self.maxPacketLength < headValue src >>> 2
      · exact .inl ⟨hm, by rw [if_pos hm]⟩
      · exact .inr ⟨Nat.not_lt.mp hm, by rw [if_neg hm]⟩

/-- One call of `decode` as a request: the answer and where it leaves the codec and the buffer. -/
def pull (self : BytesCodec) (src : Bytes) : Pull BytesCodec UInt8 Bytes IoError :=
  match self.decode src with
  | (.ok (some data), self, src) => .item data self src
  | (.ok none, self, src) => .more self src
  | (.error e, _, _) => .fail e

/-- The body of a frame whose length is known. -/
def pullBody (self : BytesCodec) (n : Nat) (src : Bytes) : Pull BytesCodec UInt8 Bytes IoError :=
  if src.length < n then .more { self with state := .data n } src
  else .item (src.take n) { self with state := .head } (src.drop n)

/-- A raw codec hands over whatever is there. -/
theorem pull_raw {self : BytesCodec} (h : self.raw = true) (src : Bytes) :
    self.pull src = if src = [] then .more self [] else .item src self [] := by
  unfold pull decode
  cases src with
  | nil => simp [h]
  | cons b rest => simp [h]

/-- In state `data n` a call asks for the body. -/
theorem pull_data {self : BytesCodec} (hr : self.raw = false) {n : Nat}
    (h : self.state = .data n) (src : Bytes) : self.pull src = self.pullBody n src := by
  obtain ⟨state, raw, maxPacketLength⟩ := self
  subst hr h
  unfold pull decode pullBody decodeData
  by_cases hl : src.length < n <;> simp [hl]

/-- In state `head` a call waits for the header, fails on it, or passes it and asks for the
body. -/
theorem pull_head {self : BytesCodec} (hr : self.raw = false) (h : self.state = .head)
    (src : Bytes) :
    self.pull src =
      match self.decodeHead src with
      | (.ok (some n), rest) => self.pullBody n rest
      | (.ok none, rest) => .more self rest
      | (.error e, _) => .fail e := by
  unfold pull decode pullBody decodeData
  rw [hr, h]
  rcases self.decodeHead src with ⟨_ | _ | n, rest⟩
  · rfl
  · rfl
  · by_cases hl : rest.length < n <;> simp [hl]

/-- The bytes still to be read, doubled, with one more while a body is owed: an empty body is an
item that takes no byte. -/
def size (self : BytesCodec) (src : Bytes) : Nat :=
  2 * src.length + match self.state with | .head => 0 | .data _ => 1

theorem pullBody_item (self : BytesCodec) (n : Nat) (src : Bytes) {data : Bytes}
    {self' : BytesCodec} {rest : Bytes} (h : self.pullBody n src = .item data self' rest) :
    n ≤ src.length ∧ data = src.take n ∧ rest = src.drop n ∧
      self' = { self with state := .head } := by
  unfold pullBody at h
  split_ifs at h with hl
  cases h
  exact ⟨Nat.not_lt.mp hl, rfl, rfl, rfl⟩

/-- Every item takes something: a byte, or the body that was owed. -/
theorem pull_item_lt {self : BytesCodec} {src : Bytes} {data : Bytes} {self' : BytesCodec}
    {rest : Bytes} (h : self.pull src = .item data self' rest) :
    self'.size rest < self.size src := by
  cases hr : self.raw with
  | true =>
    rw [pull_raw hr] at h
    split_ifs at h with he
    cases h
    have := List.length_pos_iff.mpr he
    simp only [size, List.length_nil]
    omega
  | false =>
    cases hs : self.state with
    | data n =>
      rw [pull_data hr hs] at h
      obtain ⟨hn, -, rfl, rfl⟩ := pullBody_item self n src h
      simp only [size, hs, List.length_drop]
      omega
    | head =>
      rw [pull_head hr hs] at h
      have hpos := headLen_pos src
      rcases decodeHead_cases self src with ⟨-, hd⟩ | ⟨-, hl, ⟨-, hd⟩ | ⟨-, hd⟩⟩ <;>
        simp only [hd, reduceCtorEq] at h
      obtain ⟨hn, -, rfl, rfl⟩ := pullBody_item self _ _ h
      simp only [size, hs, List.length_drop]
      omega

/-- The codec as an incremental decoder. -/
def decoder : Decoder BytesCodec UInt8 Bytes IoError := ⟨pull, size, pull_item_lt⟩

/-- A frame codec, as opposed to a raw one. -/
def Framed (self : BytesCodec) : Prop := self.raw = false

theorem pullBody_more (self : BytesCodec) (n : Nat) (src : Bytes) {self' : BytesCodec}
    {rest : Bytes} (h : self.pullBody n src = .more self' rest) :
    rest = src ∧ self' = { self with state := .data n } := by
  unfold pullBody at h
  split_ifs at h with hl
  cases h
  exact ⟨rfl, rfl⟩

/-- A body that is all there is not changed by what follows it. -/
theorem pullBody_append (self : BytesCodec) {n : Nat} {src : Bytes} (h : n ≤ src.length)
    (x : Bytes) : self.pullBody n (src ++ x) =
      .item (src.take n) { self with state := .head } (src.drop n ++ x) := by
  unfold pullBody
  rw [if_neg (by rw [List.length_append]; omega), List.take_append_of_le_length h,
    List.drop_append_of_le_length h]

/-- With the whole header in the buffer, more bytes after it do not change what it says. -/
theorem decodeHead_append (self : BytesCodec) {src : Bytes} (hne : src ≠ [])
    (h : headLen src ≤ src.length) (x : Bytes) :
    self.decodeHead (src ++ x) = ((self.decodeHead src).1, (self.decodeHead src).2 ++ x) := by
  unfold decodeHead
  have hne' : ¬ src.isEmpty = true := by simpa using hne
  have hnex : ¬ (src ++ x).isEmpty = true := by simp [hne]
  have hl : ¬ src.length < headLen src := Nat.not_lt.mpr h
  have hlx : ¬ (src ++ x).length < headLen src := by rw [List.length_append]; omega
  rw [if_neg hnex, if_neg hne', headLen_append hne, headValue_append h, if_neg hlx, if_neg hl]
  dsimp only
  split_ifs with hm
  · rfl
  · rw [List.drop_append_of_le_length h]

theorem pull_keeps_framed {self : BytesCodec} (hr : self.Framed) (src : Bytes) :
    (∀ {data self' rest}, self.pull src = .item data self' rest → self'.Framed) ∧
    (∀ {self' rest}, self.pull src = .more self' rest → self'.Framed) := by
  have body (n : Nat) (src : Bytes) :
      (∀ {data self' rest}, self.pullBody n src = .item data self' rest → self'.Framed) ∧
      (∀ {self' rest}, self.pullBody n src = .more self' rest → self'.Framed) :=
    ⟨fun h => by obtain ⟨-, -, -, rfl⟩ := pullBody_item self n src h; exact hr,
      fun h => by obtain ⟨-, rfl⟩ := pullBody_more self n src h; exact hr⟩
  cases hs : self.state with
  | data n =>
    rw [pull_data hr hs]
    exact body n src
  | head =>
    rw [pull_head hr hs]
    rcases self.decodeHead src with ⟨_ | _ | n, rest⟩
    · exact ⟨fun h => (nomatch h), fun h => (nomatch h)⟩
    · exact ⟨fun h => (nomatch h), fun h => by cases h; exact hr⟩
    · exact body n rest

/-- A body asked for again, with more bytes, is the body asked for with all of them. -/
theorem pullBody_suspends {self : BytesCodec} (hr : self.Framed) (n : Nat) (src x : Bytes) :
    match self.pullBody n src with
    | .item data self' rest => self.pullBody n (src ++ x) = .item data self' (rest ++ x)
    | .more self' rest => self'.pull (rest ++ x) = self.pullBody n (src ++ x)
    | .fail e => self.pullBody n (src ++ x) = .fail e := by
  cases hp : self.pullBody n src with
  | item data self' rest =>
    obtain ⟨hn, rfl, rfl, rfl⟩ := pullBody_item self n src hp
    exact pullBody_append self hn x
  | more self' rest =>
    obtain ⟨rfl, rfl⟩ := pullBody_more self n src hp
    have hr' : BytesCodec.Framed { self with state := .data n } := hr
    exact pull_data hr' rfl _
  | fail e =>
    unfold pullBody at hp
    split_ifs at hp

/-- One request with more bytes after the buffer, whatever it answers. A step of
`decoder_suspends`. -/
theorem pull_suspends {self : BytesCodec} (hr : self.Framed) (src x : Bytes) :
    match self.pull src with
    | .item data self' rest => self.pull (src ++ x) = .item data self' (rest ++ x)
    | .more self' rest => self'.pull (rest ++ x) = self.pull (src ++ x)
    | .fail e => self.pull (src ++ x) = .fail e := by
  cases hs : self.state with
  | data n =>
    rw [pull_data hr hs, pull_data hr hs]
    exact pullBody_suspends hr n src x
  | head =>
    rw [pull_head hr hs]
    rcases decodeHead_cases self src with ⟨-, hd⟩ | ⟨hne, hl, ⟨-, hd⟩ | ⟨-, hd⟩⟩ <;>
      simp only [hd]
    · rw [pull_head hr hs, decodeHead_append self hne hl, hd]
    · rw [pull_head hr hs, decodeHead_append self hne hl, hd]
      exact pullBody_suspends hr _ _ x

/-- **The codec suspends without loss**, at any byte of a header or a body, for any bytes and any
packet limit. -/
theorem decoder_suspends : decoder.Suspends Framed where
  item_keeps hr h := (pull_keeps_framed hr _).1 h
  more_keeps hr h := (pull_keeps_framed hr _).2 h
  item_append := @fun s buf out s' buf' x hr h => by
    have := pull_suspends hr buf x
    rwa [show s.pull buf = _ from h] at this
  fail_append := @fun s buf e x hr h => by
    have := pull_suspends hr buf x
    rwa [show s.pull buf = _ from h] at this
  more_append := @fun s buf s' buf' x hr h => by
    have := pull_suspends hr buf x
    rwa [show s.pull buf = _ from h] at this

/-! ## The stream -/

theorem new_framed : new.Framed := rfl

/-- What `encode` appends: the header and the body. -/
theorem encode_eq {self : BytesCodec} (hr : self.Framed) {data : Bytes}
    (h : data.length ≤ 0x3FFFFFFF) (buf : Bytes) :
    self.encode data buf = .ok (buf ++ (header data.length ++ data)) := by
  unfold encode header
  rw [if_neg (by rw [show self.raw = false from hr]; exact Bool.false_ne_true)]
  split_ifs <;> simp [putU8, putU16Le, putU32Le]

/-- The header of a frame at the front of a buffer says how long the body is. -/
theorem decodeHead_frame {data : Bytes} (h : data.length ≤ 0x3FFFFFFF) (rest : Bytes) :
    new.decodeHead (header data.length ++ data ++ rest) =
      (.ok (some data.length), data ++ rest) := by
  have hdr := isHeader_header data.length h
  have hw := hdr.width (data ++ rest)
  have hv := hdr.value (data ++ rest)
  have hlen : (header data.length ++ (data ++ rest)).length =
      (header data.length).length + (data.length + rest.length) := by simp
  have hpos := headLen_pos (header data.length ++ (data ++ rest))
  have hne : header data.length ++ (data ++ rest) ≠ [] := by
    intro he
    rw [he] at hlen
    simp only [List.length_nil] at hlen
    omega
  rw [List.append_assoc]
  rcases decodeHead_cases new (header data.length ++ (data ++ rest)) with
    ⟨he | hl, -⟩ | ⟨-, -, ⟨hm, -⟩ | ⟨-, hd⟩⟩
  · exact absurd he hne
  · omega
  · rw [hv] at hm
    simp only [new, usizeMax] at hm
    omega
  · rw [hd, hv, hw, List.drop_left]

/-- One frame at the front of a buffer is one item. -/
theorem pull_frame {data : Bytes} (h : data.length ≤ 0x3FFFFFFF) (rest : Bytes) :
    new.pull (header data.length ++ data ++ rest) = .item data new rest := by
  rw [pull_head rfl rfl, decodeHead_frame h]
  simp only
  rw [pullBody_append new (Nat.le_refl _), List.take_length, List.drop_length, List.nil_append]
  rfl

/-- The bytes `encodeAll` writes for a list of payloads. -/
def wire (payloads : List Bytes) : Bytes :=
  (payloads.map fun data => header data.length ++ data).flatten

theorem encodeAll_eq {payloads : List Bytes} (h : ∀ data ∈ payloads, data.length ≤ 0x3FFFFFFF)
    (buf : Bytes) : new.encodeAll payloads buf = .ok (buf ++ wire payloads) := by
  induction payloads generalizing buf with
  | nil => simp [encodeAll, wire]
  | cons data payloads ih =>
    rw [encodeAll, encode_eq new_framed (h data List.mem_cons_self), Except.bind,
      ih fun d hd => h d (List.mem_cons_of_mem _ hd)]
    simp [wire]

/-- Draining what was written gives back the payloads and leaves nothing. -/
theorem drain_wire {payloads : List Bytes} (h : ∀ data ∈ payloads, data.length ≤ 0x3FFFFFFF) :
    decoder.drain new (wire payloads) = (payloads, .waiting new []) := by
  induction payloads with
  | nil => exact Decoder.drain_more rfl
  | cons data payloads ih =>
    have hp := pull_frame (h data List.mem_cons_self) (wire payloads)
    have ih' := ih fun d hd => h d (List.mem_cons_of_mem _ hd)
    rw [show wire (data :: payloads) = header data.length ++ data ++ wire payloads by
      simp [wire], Decoder.drain_item hp, ih']

/-- **The codec's round trip.** Payloads of at most `0x3FFFFFFF` bytes are encoded without error,
and however the bytes are cut into chunks, a fresh codec that drains after each chunk yields the
payloads in order, is back in its first state, and leaves nothing in the buffer. -/
theorem feed_encodeAll (payloads : List Bytes)
    (h : ∀ data ∈ payloads, data.length ≤ 0x3FFFFFFF) :
    ∃ stream, new.encodeAll payloads [] = .ok stream ∧
      ∀ chunks : List Bytes, chunks.flatten = stream →
        decoder.feed new [] chunks = (payloads, .waiting { new with state := .head } []) := by
  refine ⟨wire payloads, encodeAll_eq h [], fun chunks hc => ?_⟩
  rw [Decoder.feed_eq_drain decoder_suspends chunks new [] rfl (Decoder.drain_more rfl),
    List.nil_append, hc, drain_wire h]
  rfl

/-- An empty payload between two others, cut before, inside and after its header. -/
theorem feed_encodeAll_empty_between :
    (∀ data ∈ ([[7], [], [8, 9]] : List Bytes), data.length ≤ 0x3FFFFFFF) ∧
      decoder.feed new [] [[4], [], [7, 0], [8], [8, 9]] =
        ([[7], [], [8, 9]], .waiting { new with state := .head } []) := by
  have h : ∀ data ∈ ([[7], [], [8, 9]] : List Bytes), data.length ≤ 0x3FFFFFFF := by decide
  obtain ⟨stream, hs, hfeed⟩ := feed_encodeAll _ h
  have hstream : stream = [4, 7, 0, 8, 8, 9] := Except.ok.inj (hs.symm.trans rfl)
  exact ⟨h, hfeed _ hstream.symm⟩

/-! ## The limit -/

/-- The body a codec waits for is within its limit. -/
def Limited (n : Nat) (self : BytesCodec) : Prop :=
  self.raw = false ∧ self.maxPacketLength = n ∧ ∀ m, self.state = .data m → m ≤ n

theorem pullBody_limited {n m : Nat} {self self' : BytesCodec} {src data rest : Bytes}
    (hl : self.Limited n) (hm : m ≤ n) (h : self.pullBody m src = .item data self' rest) :
    data.length ≤ n ∧ self'.Limited n := by
  obtain ⟨hsrc, rfl, -, rfl⟩ := pullBody_item self m src h
  refine ⟨?_, hl.1, hl.2.1, fun k hk => nomatch hk⟩
  rw [List.length_take]
  omega

/-- A frame within the limit leaves the codec with a body to wait for that is within it. -/
theorem pull_limited {n : Nat} {self self' : BytesCodec} {src data rest : Bytes}
    (hl : self.Limited n) (h : self.pull src = .item data self' rest) :
    data.length ≤ n ∧ self'.Limited n := by
  obtain ⟨hr, hmax, hbody⟩ := hl
  cases hs : self.state with
  | data m =>
    rw [pull_data hr hs] at h
    exact pullBody_limited ⟨hr, hmax, hbody⟩ (hbody m hs) h
  | head =>
    rw [pull_head hr hs] at h
    rcases decodeHead_cases self src with ⟨-, hd⟩ | ⟨-, -, ⟨-, hd⟩ | ⟨hv, hd⟩⟩ <;>
      simp only [hd, reduceCtorEq] at h
    rw [hmax] at hv
    exact pullBody_limited ⟨hr, hmax, hbody⟩ hv h

/-- A call that fails was looking at a header, and leaves it there. -/
theorem decode_error {self self' : BytesCodec} {src src' : Bytes} {e : IoError}
    (h : self.decode src = (.error e, self', src')) :
    self.raw = false ∧ self' = self ∧ src' = src := by
  cases hr : self.raw with
  | true =>
    unfold decode at h
    cases src with
    | nil => simp [hr] at h
    | cons b rest => simp [hr] at h
  | false =>
    unfold decode decodeData at h
    simp only [hr, Bool.false_eq_true, if_false] at h
    cases hs : self.state with
    | data m =>
      by_cases hm : src.length < m <;> simp [hs, hm] at h
    | head =>
      rcases decodeHead_cases self src with ⟨-, hd⟩ | ⟨-, -, ⟨-, hd⟩ | ⟨-, hd⟩⟩
      · simp [hs, hd] at h
      · simp only [hs, hd, Prod.mk.injEq] at h
        exact ⟨rfl, h.2.1.symm, h.2.2.symm⟩
      · by_cases hm : (src.drop (headLen src)).length < headValue src >>> 2
        · simp only [hs, hd, if_pos hm, Prod.mk.injEq, reduceCtorEq, false_and] at h
        · simp only [hs, hd, if_neg hm, Prod.mk.injEq, reduceCtorEq, false_and] at h

/-- A codec that has failed fails again, whatever comes after. -/
theorem decode_error_append {self self' : BytesCodec} {src src' : Bytes} {e : IoError}
    (h : self.decode src = (.error e, self', src')) (x : Bytes) :
    ∃ after : BytesCodec × Bytes, self.decode (src ++ x) = (.error e, after) := by
  have hr : self.Framed := (decode_error h).1
  have hp : self.pull src = .fail e := by
    rw [pull, h]
  have hx : self.pull (src ++ x) = .fail e := decoder_suspends.fail_append x hr hp
  unfold pull at hx
  rcases hd : self.decode (src ++ x) with ⟨_ | _ | _, after⟩
  · rw [hd] at hx
    cases hx
    exact ⟨after, rfl⟩
  · rw [hd] at hx
    cases hx
  · rw [hd] at hx
    cases hx

/-- **Frames do not depend on chunks, within any limit.** For any bytes and any way of cutting
them, a codec of packet limit `n` gives, drained after each chunk, the frames and the end that it
gives on all the bytes at once; none of the frames is longer than `n`. A call that fails, of any
codec on any buffer, leaves both as they were, and fails in the same way with more bytes there. -/
theorem feed_setMaxPacketLength (n : Nat) (chunks : List Bytes) :
    decoder.feed (new.setMaxPacketLength n) [] chunks =
        decoder.drain (new.setMaxPacketLength n) chunks.flatten ∧
      (∀ frame ∈ (decoder.feed (new.setMaxPacketLength n) [] chunks).1, frame.length ≤ n) ∧
      ∀ (self self' : BytesCodec) (src src' : Bytes) (e : IoError),
        self.decode src = (.error e, self', src') →
          self' = self ∧ src' = src ∧ ∀ x, self.decode (src ++ x) = (.error e, self, src ++ x) := by
  have hcut : decoder.feed (new.setMaxPacketLength n) [] chunks =
      decoder.drain (new.setMaxPacketLength n) chunks.flatten :=
    Decoder.feed_eq_drain decoder_suspends chunks _ [] rfl (Decoder.drain_more rfl)
  refine ⟨hcut, ?_, fun self self' src src' e h => ?_⟩
  · rw [hcut]
    exact Decoder.drain_forall (fun hl hp => pull_limited hl hp) _ _
      ⟨rfl, rfl, fun m hm => nomatch hm⟩
  · obtain ⟨-, hself, hsrc⟩ := decode_error h
    refine ⟨hself, hsrc, fun x => ?_⟩
    obtain ⟨after, hx⟩ := decode_error_append h x
    obtain ⟨-, hself', hsrc'⟩ := decode_error hx
    rw [hx]
    exact congrArg _ (Prod.ext hself' hsrc')

end HopToDesk.Wire.BytesCodec
