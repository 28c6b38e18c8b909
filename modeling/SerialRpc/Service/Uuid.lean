import SerialRpc.Lib.Hex
import SerialRpc.Service.Generator

/-!
# UUIDs as text (serialrpc_objects.cc:165-209, internal.cc:14-23)

A service's UUID is an option of its declaration, in hexadecimal digits. The generator reads
it and prints it into a comment, and the client prints it into an error.

- `uuidStringToBytes`, `uuidString`, `formatUuid`: the source's functions. The parser checks
  where four dashes are, and then passes over dashes anywhere.
- `IsUuidText`: the five groups of digits. `uuidStringToBytes_dashed`,
  `isUuidText_of_parsed`: the parser accepts these texts and no others, since a text of 36
  characters with more than four dashes has too few digits.
- `uuid_text`: what is printed is the text in lower case, and can be parsed.
-/

namespace SerialRpc

/-! ## The source's functions -/

/-- `HexDigit` (serialrpc_objects.cc:165-175). -/
def Uuid.hexDigit (c : UInt8) : Int :=
  if 48 ≤ c ∧ c ≤ 57 then (c.toNat : Int) - 48
  else if 97 ≤ c ∧ c ≤ 102 then (c.toNat : Int) - 97 + 10
  else if 65 ≤ c ∧ c ≤ 70 then (c.toNat : Int) - 65 + 10
  else -1

/-- The loop of `UuidStringToBytes`, on what is left of the text, with the bytes so far. -/
def uuidBytes : Str → List UInt8 → Option (List UInt8)
  | [], bytes => some bytes
  | c :: rest, bytes =>
    if c = 45 then uuidBytes rest bytes
    else
      match rest with
      | [] => none
      | d :: rest =>
        let hi := Uuid.hexDigit c
        let lo := Uuid.hexDigit d
        if hi < 0 ∨ lo < 0 ∨ bytes.length ≥ 16 then none
        else uuidBytes rest (bytes ++ [UInt8.ofNat ((hi.toNat <<< 4) ||| lo.toNat)])

/-- `UuidStringToBytes` (serialrpc_objects.cc:177-209). -/
def uuidStringToBytes (uuid : Str) : Option Uuid :=
  if uuid.length ≠ 36 then none
  else if uuid[8]? ≠ some 45 ∨ uuid[13]? ≠ some 45 ∨ uuid[18]? ≠ some 45 ∨ uuid[23]? ≠ some 45 then
    none
  else
    match uuidBytes uuid [] with
    | none => none
    | some bytes => if h : bytes.length = 16 then some ⟨bytes, h⟩ else none

/-- The loop that prints bytes from the `i`-th one on, with dashes before some. -/
def dashedHex : Nat → List UInt8 → Str
  | _, [] => []
  | i, b :: bytes =>
    let digits := Hex.byteDigits b ++ dashedHex (i + 1) bytes
    if i = 4 ∨ i = 6 ∨ i = 8 ∨ i = 10 then 45 :: digits else digits

/-- `UuidString` (protoc_serialrpc_plugin.cc:324-333): every byte through `std::hex`, in a
field of two characters that is filled with zeros. -/
def uuidString (data : Uuid) : Str := dashedHex 0 data.bytes

/-- `format_uuid` (internal.cc:14-23): every byte through `%02x`. -/
def formatUuid (uuidBytes : Str) : Str := dashedHex 0 uuidBytes

/-! ## Texts -/

/-- Five groups with dashes between them. -/
def dashed (g₁ g₂ g₃ g₄ g₅ : Str) : Str :=
  g₁ ++ 45 :: (g₂ ++ 45 :: (g₃ ++ 45 :: (g₄ ++ 45 :: g₅)))

/-- So many hexadecimal digits of either case. -/
def HexGroup (n : Nat) (s : Str) : Prop := s.length = n ∧ ∀ c ∈ s, Hex.IsDigit c

/-- Groups of 8, 4, 4, 4 and 12 hexadecimal digits. -/
def IsUuidText (u : Str) : Prop :=
  ∃ g₁ g₂ g₃ g₄ g₅ : Str, HexGroup 8 g₁ ∧ HexGroup 4 g₂ ∧ HexGroup 4 g₃ ∧ HexGroup 4 g₄ ∧
    HexGroup 12 g₅ ∧ u = dashed g₁ g₂ g₃ g₄ g₅

theorem Uuid.hexDigit_eq (c : UInt8) :
    Uuid.hexDigit c = if Hex.IsDigit c then (Hex.value c : Int) else -1 :=
  Hex.of_all_bytes
    (P := fun c => Uuid.hexDigit c = if Hex.IsDigit c then (Hex.value c : Int) else -1)
    (by decide +kernel) c

theorem isDigit_of_hexDigit {c : UInt8} (h : ¬ Uuid.hexDigit c < 0) : Hex.IsDigit c := by
  by_contra hne
  rw [Uuid.hexDigit_eq, if_neg hne] at h
  exact h (by decide)

theorem not_isDigit_dash : ¬ Hex.IsDigit 45 := by decide

/-- A byte from two digits. -/
theorem uuidBytes_pack {high low : UInt8} (hhigh : Hex.IsDigit high) (hlow : Hex.IsDigit low) :
    UInt8.ofNat (((Uuid.hexDigit high).toNat <<< 4) ||| (Uuid.hexDigit low).toNat) =
      Hex.pack high low := by
  rw [Uuid.hexDigit_eq, Uuid.hexDigit_eq, if_pos hhigh, if_pos hlow, Int.toNat_natCast,
    Int.toNat_natCast, ← Nat.shiftLeft_add_eq_or_of_lt (Hex.value_lt hlow), Nat.shiftLeft_eq]
  rfl

/-! ## Parsing a text -/

/-- The loop reads a group. -/
theorem uuidBytes_group :
    ∀ {n : Nat} {g : Str}, HexGroup (2 * n) g → ∀ {bytes : List UInt8}, bytes.length + n ≤ 16 →
      ∀ rest, uuidBytes (g ++ rest) bytes = uuidBytes rest (bytes ++ Hex.decode g)
  | 0, g, hg, bytes, _, rest => by
    obtain rfl := List.length_eq_zero_iff.mp hg.1
    show uuidBytes rest bytes = uuidBytes rest (bytes ++ [])
    rw [List.append_nil]
  | n + 1, [], hg, _, _, _ => absurd hg.1 (by simp)
  | n + 1, [_], hg, _, _, _ => absurd hg.1 (by simp; omega)
  | n + 1, high :: low :: g, hg, bytes, hroom, rest => by
    have hhigh := hg.2 high List.mem_cons_self
    have hlow := hg.2 low (List.mem_cons_of_mem _ List.mem_cons_self)
    have hne : high ≠ 45 := by
      rintro rfl
      exact not_isDigit_dash hhigh
    have hgroup : HexGroup (2 * n) g := by
      refine ⟨?_, fun c hc => hg.2 c (List.mem_cons_of_mem _ (List.mem_cons_of_mem _ hc))⟩
      have hlength := hg.1
      rw [List.length_cons, List.length_cons] at hlength
      omega
    have hok : ¬ (Uuid.hexDigit high < 0 ∨ Uuid.hexDigit low < 0 ∨ bytes.length ≥ 16) := by
      rw [Uuid.hexDigit_eq, Uuid.hexDigit_eq, if_pos hhigh, if_pos hlow]
      omega
    have hroom : (bytes ++ [Hex.pack high low]).length + n ≤ 16 := by
      rw [List.length_append, List.length_singleton]
      omega
    have hrest := uuidBytes_group hgroup hroom rest
    rw [List.append_assoc] at hrest
    simp only [List.cons_append, uuidBytes, hne, if_false, hok, uuidBytes_pack hhigh hlow]
    exact hrest

theorem uuidBytes_dash (rest : Str) (bytes : List UInt8) :
    uuidBytes (45 :: rest) bytes = uuidBytes rest bytes := by
  rw [uuidBytes.eq_def]
  exact if_pos rfl

section Groups

variable {g₁ g₂ g₃ g₄ g₅ : Str}

theorem dashed_length (h₁ : HexGroup 8 g₁) (h₂ : HexGroup 4 g₂) (h₃ : HexGroup 4 g₃)
    (h₄ : HexGroup 4 g₄) (h₅ : HexGroup 12 g₅) : (dashed g₁ g₂ g₃ g₄ g₅).length = 36 := by
  simp only [dashed, List.length_append, List.length_cons, h₁.1, h₂.1, h₃.1, h₄.1, h₅.1]

/-- The dashes are where the parser looks for them. -/
theorem dashed_dashes (g₅ : Str) (h₁ : HexGroup 8 g₁) (h₂ : HexGroup 4 g₂) (h₃ : HexGroup 4 g₃)
    (h₄ : HexGroup 4 g₄) :
    (dashed g₁ g₂ g₃ g₄ g₅)[8]? = some 45 ∧ (dashed g₁ g₂ g₃ g₄ g₅)[13]? = some 45 ∧
      (dashed g₁ g₂ g₃ g₄ g₅)[18]? = some 45 ∧ (dashed g₁ g₂ g₃ g₄ g₅)[23]? = some 45 := by
  have hdash : ∀ {k : Nat} {s t : Str}, s.length = k → (s ++ 45 :: t)[k]? = some (45 : UInt8) := by
    rintro k s t rfl
    rw [List.getElem?_append_right (Nat.le_refl _), Nat.sub_self, List.getElem?_cons_zero]
  have hat₂ := hdash (k := 13) (s := g₁ ++ 45 :: g₂) (t := g₃ ++ 45 :: (g₄ ++ 45 :: g₅))
    (by simp [h₁.1, h₂.1])
  have hat₃ := hdash (k := 18) (s := g₁ ++ 45 :: g₂ ++ 45 :: g₃) (t := g₄ ++ 45 :: g₅)
    (by simp [h₁.1, h₂.1, h₃.1])
  have hat₄ := hdash (k := 23) (s := g₁ ++ 45 :: g₂ ++ 45 :: g₃ ++ 45 :: g₄) (t := g₅)
    (by simp [h₁.1, h₂.1, h₃.1, h₄.1])
  simp only [List.append_assoc, List.cons_append] at hat₂ hat₃ hat₄
  exact ⟨hdash h₁.1, hat₂, hat₃, hat₄⟩

/-- The loop reads the groups one after the other. -/
theorem uuidBytes_dashed (h₁ : HexGroup 8 g₁) (h₂ : HexGroup 4 g₂) (h₃ : HexGroup 4 g₃)
    (h₄ : HexGroup 4 g₄) (h₅ : HexGroup 12 g₅) :
    ∃ bytes, uuidBytes (dashed g₁ g₂ g₃ g₄ g₅) [] = some bytes ∧ bytes.length = 16 ∧
      bytes = Hex.decode g₁ ++ (Hex.decode g₂ ++ (Hex.decode g₃ ++
        (Hex.decode g₄ ++ Hex.decode g₅))) := by
  have hcount : ∀ {n : Nat} {g : Str}, HexGroup (2 * n) g → (Hex.decode g).length = n :=
    fun hg => (Hex.encode_decode hg.1 hg.2).1
  have hlen₁ := hcount (n := 4) h₁
  have hlen₂ := hcount (n := 2) h₂
  have hlen₃ := hcount (n := 2) h₃
  have hlen₄ := hcount (n := 2) h₄
  have hlen₅ := hcount (n := 6) h₅
  have hroom :
      (Hex.decode g₁ ++ Hex.decode g₂ ++ Hex.decode g₃ ++ Hex.decode g₄).length + 6 ≤ 16 := by
    simp only [List.length_append]
    omega
  have hlast := uuidBytes_group h₅ hroom []
  refine ⟨_, ?_, ?_, rfl⟩
  · rw [dashed, uuidBytes_group (n := 4) h₁ (by simp), uuidBytes_dash, List.nil_append,
      uuidBytes_group (n := 2) h₂ (by omega), uuidBytes_dash,
      uuidBytes_group (n := 2) h₃ (by simp only [List.length_append]; omega), uuidBytes_dash,
      uuidBytes_group (n := 2) h₄ (by simp only [List.length_append]; omega), uuidBytes_dash,
      ← List.append_nil g₅, hlast]
    simp only [uuidBytes, List.append_assoc, List.append_nil]
  · simp only [List.length_append]
    omega

/-- Groups of digits are parsed. -/
theorem uuidStringToBytes_dashed (h₁ : HexGroup 8 g₁) (h₂ : HexGroup 4 g₂) (h₃ : HexGroup 4 g₃)
    (h₄ : HexGroup 4 g₄) (h₅ : HexGroup 12 g₅) :
    ∃ data : Uuid, uuidStringToBytes (dashed g₁ g₂ g₃ g₄ g₅) = some data ∧
      data.bytes = Hex.decode g₁ ++ (Hex.decode g₂ ++ (Hex.decode g₃ ++
        (Hex.decode g₄ ++ Hex.decode g₅))) := by
  obtain ⟨bytes, hparse, hsixteen, hbytes⟩ := uuidBytes_dashed h₁ h₂ h₃ h₄ h₅
  obtain ⟨hat₁, hat₂, hat₃, hat₄⟩ := dashed_dashes g₅ h₁ h₂ h₃ h₄
  have hlength := dashed_length h₁ h₂ h₃ h₄ h₅
  refine ⟨⟨bytes, hsixteen⟩, ?_, hbytes⟩
  rw [uuidStringToBytes, if_neg (not_not.mpr hlength),
    if_neg (by simp only [hat₁, hat₂, hat₃, hat₄, ne_eq, not_true_eq_false, or_self,
      not_false_eq_true]), hparse]
  exact dif_pos hsixteen

end Groups

/-! ## What is parsed is such a text -/

/-- The loop has found digits and dashes only, two digits for a byte. -/
theorem uuidBytes_count :
    ∀ {s : Str} {bytes parsed : List UInt8}, uuidBytes s bytes = some parsed →
      (∀ c ∈ s, c = 45 ∨ Hex.IsDigit c) ∧
      2 * parsed.length + s.count 45 = 2 * bytes.length + s.length
  | [], bytes, parsed, h => by
    cases h
    exact ⟨fun c hc => absurd hc List.not_mem_nil, rfl⟩
  | c :: s, bytes, parsed, h => by
    by_cases hc : c = 45
    · subst hc
      rw [uuidBytes_dash] at h
      obtain ⟨hs, hcount⟩ := uuidBytes_count h
      refine ⟨fun d hd => ?_, ?_⟩
      · rcases List.mem_cons.mp hd with rfl | hd
        · exact .inl rfl
        · exact hs d hd
      · rw [List.count_cons_self, List.length_cons]
        omega
    · match s with
      | [] =>
        rw [uuidBytes, if_neg hc] at h
        cases h
      | d :: s =>
        rw [uuidBytes, if_neg hc] at h
        dsimp only at h
        split at h
        · cases h
        · rename_i hok
          have hhigh := isDigit_of_hexDigit fun h => hok (.inl h)
          have hlow := isDigit_of_hexDigit fun h => hok (.inr (.inl h))
          have hd : d ≠ 45 := by
            rintro rfl
            exact not_isDigit_dash hlow
          obtain ⟨hs, hcount⟩ := uuidBytes_count h
          rw [List.length_append, List.length_singleton] at hcount
          refine ⟨fun e he => ?_, ?_⟩
          · rcases List.mem_cons.mp he with rfl | he
            · exact .inr hhigh
            · rcases List.mem_cons.mp he with rfl | he
              · exact .inr hlow
              · exact hs e he
          · rw [List.count_cons_of_ne hc, List.count_cons_of_ne hd, List.length_cons,
              List.length_cons]
            omega

/-- A text around one of its characters. -/
theorem exists_split {u : Str} {k : Nat} {c : UInt8} (h : u[k]? = some c) :
    ∃ s t, s.length = k ∧ u = s ++ c :: t := by
  obtain ⟨hk, hc⟩ := List.getElem?_eq_some_iff.mp h
  refine ⟨u.take k, u.drop (k + 1), List.length_take_of_le (Nat.le_of_lt hk), ?_⟩
  rw [← hc, List.getElem_cons_drop, List.take_append_drop]

/-- What stands behind a dash. -/
theorem getElem?_behind {g t : Str} {n k : Nat} {c : UInt8} (hg : g.length = n)
    (h : (g ++ 45 :: t)[n + 1 + k]? = some c) : t[k]? = some c := by
  have hindex : n + 1 + k - g.length = k + 1 := by omega
  rwa [List.getElem?_append_right (by omega), hindex, List.getElem?_cons_succ] at h

/-- With dashes in four places there is room for digits only in the others. -/
theorem isUuidText_of_parsed {u : Str} {data : Uuid} (h : uuidStringToBytes u = some data) :
    IsUuidText u := by
  unfold uuidStringToBytes at h
  split at h
  · cases h
  rename_i hlength
  rw [not_not] at hlength
  split at h
  · cases h
  rename_i hdashes
  simp only [not_or, ne_eq, not_not] at hdashes
  obtain ⟨h₈, h₁₃, h₁₈, h₂₃⟩ := hdashes
  split at h
  · cases h
  rename_i bytes hparse
  split at h
  case isFalse => cases h
  rename_i hbytes
  obtain ⟨hchars, hcount⟩ := uuidBytes_count hparse
  rw [hbytes, hlength] at hcount
  -- The groups, one by one.
  obtain ⟨g₁, t, hg₁, rfl⟩ := exists_split h₈
  replace h₁₃ := getElem?_behind hg₁ (k := 4) h₁₃
  replace h₁₈ := getElem?_behind hg₁ (k := 9) h₁₈
  replace h₂₃ := getElem?_behind hg₁ (k := 14) h₂₃
  obtain ⟨g₂, t, hg₂, rfl⟩ := exists_split h₁₃
  replace h₁₈ := getElem?_behind hg₂ (k := 4) h₁₈
  replace h₂₃ := getElem?_behind hg₂ (k := 9) h₂₃
  obtain ⟨g₃, t, hg₃, rfl⟩ := exists_split h₁₈
  replace h₂₃ := getElem?_behind hg₃ (k := 4) h₂₃
  obtain ⟨g₄, g₅, hg₄, rfl⟩ := exists_split h₂₃
  have hg₅ : g₅.length = 12 := by
    simp only [List.length_append, List.length_cons] at hlength
    omega
  -- Of the 36 characters 32 are digits, so there are no other dashes.
  simp only [List.count_append, List.count_cons_self, List.length_nil] at hcount
  have hdigits : ∀ {g : Str}, (∀ c ∈ g, c = 45 ∨ Hex.IsDigit c) → g.count 45 = 0 →
      ∀ c ∈ g, Hex.IsDigit c := by
    intro g hg hnone c hc
    rcases hg c hc with rfl | hdigit
    · exact absurd hc (List.count_eq_zero.mp hnone)
    · exact hdigit
  simp only [List.mem_append, List.mem_cons] at hchars
  refine ⟨g₁, g₂, g₃, g₄, g₅, ⟨hg₁, ?_⟩, ⟨hg₂, ?_⟩, ⟨hg₃, ?_⟩, ⟨hg₄, ?_⟩, ⟨hg₅, ?_⟩, rfl⟩
  · exact hdigits (fun c hc => hchars c (by simp [hc])) (by omega)
  · exact hdigits (fun c hc => hchars c (by simp [hc])) (by omega)
  · exact hdigits (fun c hc => hchars c (by simp [hc])) (by omega)
  · exact hdigits (fun c hc => hchars c (by simp [hc])) (by omega)
  · exact hdigits (fun c hc => hchars c (by simp [hc])) (by omega)

/-! ## Printing -/

/-- Bytes in front of which there are no dashes. -/
theorem dashedHex_group {bytes : List UInt8} :
    ∀ {i : Nat}, (∀ j < bytes.length, ¬ (i + j = 4 ∨ i + j = 6 ∨ i + j = 8 ∨ i + j = 10)) →
      ∀ rest, dashedHex i (bytes ++ rest) =
        Hex.encode bytes ++ dashedHex (i + bytes.length) rest := by
  induction bytes with
  | nil => exact fun _ _ => rfl
  | cons b bytes ih =>
    intro i hi rest
    have hfirst : ¬ (i = 4 ∨ i = 6 ∨ i = 8 ∨ i = 10) := hi 0 (Nat.succ_pos _)
    have hrest := ih (i := i + 1) (fun j hj => by
      have hne := hi (j + 1) (Nat.succ_lt_succ hj)
      rwa [← Nat.add_assoc, Nat.add_right_comm] at hne) rest
    rw [List.cons_append, dashedHex, if_neg hfirst, hrest, Hex.encode_cons, List.length_cons,
      ← Nat.add_assoc, Nat.add_right_comm]
    rfl

/-- The first byte of a later group has a dash in front of it. -/
theorem dashedHex_dash {i : Nat} (hi : i = 4 ∨ i = 6 ∨ i = 8 ∨ i = 10) {n : Nat}
    {bytes : List UInt8} (hlength : bytes.length = n + 1)
    (hrest : ∀ j < n, ¬ (i + 1 + j = 4 ∨ i + 1 + j = 6 ∨ i + 1 + j = 8 ∨ i + 1 + j = 10))
    (rest : List UInt8) :
    dashedHex i (bytes ++ rest) = 45 :: (Hex.encode bytes ++ dashedHex (i + (n + 1)) rest) := by
  cases bytes with
  | nil => cases hlength
  | cons b bytes =>
    obtain rfl := Nat.succ.inj hlength
    rw [List.cons_append, dashedHex, if_pos hi, dashedHex_group hrest, Hex.encode_cons,
      Nat.add_assoc, Nat.add_comm 1]
    rfl

/-- Bytes are printed in five groups. -/
theorem dashedHex_groups {b₁ b₂ b₃ b₄ b₅ : List UInt8} (h₁ : b₁.length = 4) (h₂ : b₂.length = 2)
    (h₃ : b₃.length = 2) (h₄ : b₄.length = 2) (h₅ : b₅.length = 6) :
    dashedHex 0 (b₁ ++ (b₂ ++ (b₃ ++ (b₄ ++ b₅)))) =
      dashed (Hex.encode b₁) (Hex.encode b₂) (Hex.encode b₃) (Hex.encode b₄) (Hex.encode b₅) := by
  have hlast := dashedHex_dash (i := 10) (by decide) (n := 5) h₅ (by decide) []
  rw [List.append_nil] at hlast
  rw [dashedHex_group (by rw [h₁]; decide), h₁,
    dashedHex_dash (i := 4) (by decide) (n := 1) h₂ (by decide),
    dashedHex_dash (i := 6) (by decide) (n := 1) h₃ (by decide),
    dashedHex_dash (i := 8) (by decide) (n := 1) h₄ (by decide), hlast]
  simp only [dashed, dashedHex, List.append_nil]

/-- A UUID's bytes in the groups in which they are printed. -/
theorem Uuid.exists_groups (data : Uuid) :
    ∃ b₁ b₂ b₃ b₄ b₅ : List UInt8, b₁.length = 4 ∧ b₂.length = 2 ∧ b₃.length = 2 ∧
      b₄.length = 2 ∧ b₅.length = 6 ∧ data.bytes = b₁ ++ (b₂ ++ (b₃ ++ (b₄ ++ b₅))) := by
  have hlength := data.length_eq
  refine ⟨data.bytes.take 4, (data.bytes.drop 4).take 2, (data.bytes.drop 6).take 2,
    (data.bytes.drop 8).take 2, data.bytes.drop 10, ?_, ?_, ?_, ?_, ?_, ?_⟩
  · simp [hlength]
  · simp [hlength]
  · simp [hlength]
  · simp [hlength]
  · simp [hlength]
  · have hdrop : ∀ k : Nat,
        data.bytes.drop k = (data.bytes.drop k).take 2 ++ data.bytes.drop (k + 2) := by
      intro k
      rw [← List.drop_drop, List.take_append_drop]
    rw [← hdrop 8, ← hdrop 6, ← hdrop 4, List.take_append_drop]

/-- A UUID's text is parsed exactly if it has the form 8-4-4-4-12, and both printers give it
back in lower case; and what is printed for any bytes is parsed as these. -/
theorem uuid_text :
    (∀ u : Str, ((uuidStringToBytes u).isSome ↔ IsUuidText u) ∧
      ∀ data, uuidStringToBytes u = some data →
        uuidString data = u.map Hex.lower ∧ formatUuid data.bytes = u.map Hex.lower) ∧
    ∀ data : Uuid, uuidStringToBytes (uuidString data) = some data := by
  refine ⟨fun u => ⟨⟨fun h => ?_, ?_⟩, fun data h => ?_⟩, fun data => ?_⟩
  · obtain ⟨data, hdata⟩ := Option.isSome_iff_exists.mp h
    exact isUuidText_of_parsed hdata
  · rintro ⟨g₁, g₂, g₃, g₄, g₅, h₁, h₂, h₃, h₄, h₅, rfl⟩
    obtain ⟨data, hdata, -⟩ := uuidStringToBytes_dashed h₁ h₂ h₃ h₄ h₅
    rw [hdata, Option.isSome_some]
  · obtain ⟨g₁, g₂, g₃, g₄, g₅, h₁, h₂, h₃, h₄, h₅, rfl⟩ := isUuidText_of_parsed h
    obtain ⟨data', hdata, hbytes⟩ := uuidStringToBytes_dashed h₁ h₂ h₃ h₄ h₅
    obtain rfl : data' = data := Option.some.inj (hdata.symm.trans h)
    have hgroup : ∀ {n : Nat} {g : Str}, HexGroup (2 * n) g →
        (Hex.decode g).length = n ∧ Hex.encode (Hex.decode g) = g.map Hex.lower :=
      fun hg => Hex.encode_decode hg.1 hg.2
    obtain ⟨hn₁, he₁⟩ := hgroup (n := 4) h₁
    obtain ⟨hn₂, he₂⟩ := hgroup (n := 2) h₂
    obtain ⟨hn₃, he₃⟩ := hgroup (n := 2) h₃
    obtain ⟨hn₄, he₄⟩ := hgroup (n := 2) h₄
    obtain ⟨hn₅, he₅⟩ := hgroup (n := 6) h₅
    have hprinted : dashedHex 0 data'.bytes = (dashed g₁ g₂ g₃ g₄ g₅).map Hex.lower := by
      rw [hbytes, dashedHex_groups hn₁ hn₂ hn₃ hn₄ hn₅, he₁, he₂, he₃, he₄, he₅]
      simp only [dashed, List.map_append, List.map_cons]
      rfl
    exact ⟨hprinted, hprinted⟩
  · obtain ⟨b₁, b₂, b₃, b₄, b₅, h₁, h₂, h₃, h₄, h₅, hbytes⟩ := data.exists_groups
    have hgroup : ∀ {n : Nat} {b : List UInt8}, b.length = n → HexGroup (2 * n) (Hex.encode b) := by
      rintro n b rfl
      exact ⟨Hex.length_encode b, Hex.isDigit_encode b⟩
    obtain ⟨data', hdata, hparsed⟩ := uuidStringToBytes_dashed (hgroup h₁) (hgroup h₂) (hgroup h₃)
      (hgroup h₄) (hgroup h₅)
    simp only [Hex.decode_encode] at hparsed
    rw [uuidString, hbytes, dashedHex_groups h₁ h₂ h₃ h₄ h₅, hdata]
    exact congrArg some (Uuid.ext (hparsed.trans hbytes.symm))

end SerialRpc
