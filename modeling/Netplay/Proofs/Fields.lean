/-
  Values written in a row, and any parts read off a byte string.

  Fields are written one behind the other and read by their kinds.  Nothing marks the
  end of a field, so all depends on each read taking as many bytes as were written.  On
  bytes that nobody wrote so, a read may fail, and the next one goes on where it stopped.

  * `Part`: what can be read, a field of a kind or a text, and `Part.readEach`: parts read
    one after the other, whether or not one of them fails;
  * `Part.Takes`: what a read takes off the front, by what it answers, with
    `Part.read_takes`;
  * `Part.TakesEach`: the same of parts in a row;
  * `Part.readEach_write`: fields come back, byte strings cut to what a length can say;
  * `Part.fits_together`: when fields come back unchanged, and what any reads leave.
-/
import Netplay.Bytes.Utf8
import Netplay.Proofs.Layouts

namespace Netplay

/-! ## Parts -/

namespace Field

/-- The length in front can say how long the value is. -/
def Fits : Field → Prop
  | prefixed v => v.length ≤ Bytes.maxPrefixed
  | _ => True

/-- What a reader gets of a value: a byte string is cut to what a length can say. -/
def kept : Field → Field
  | prefixed v => prefixed (v.take Bytes.maxPrefixed)
  | f => f

theorem kept_eq_self_iff {f : Field} : f.kept = f ↔ f.Fits := by
  cases f with
  | «prefixed» v =>
    rw [kept, Fits, prefixed.injEq]
    exact ⟨fun h => h ▸ List.length_take_le _ _, List.take_of_length_le⟩
  | _ => exact ⟨fun _ => trivial, fun _ => rfl⟩

end Field

/-- What can be read: a field of a kind, or a text. -/
inductive Part where
  | field (k : Field.Kind)
  | text

namespace Part

/-- What is read. -/
inductive Value where
  | field (f : Field)
  | text (s : String)
  deriving DecidableEq

def read : Part → Reader Value
  | .field k => do return .field (← Field.read k)
  | .text => do return .text (← Reader.text)

/-- Read parts one after the other, each where the one before it stopped. -/
def readEach : List Part → Bytes → List (Option Value) × Bytes
  | [], bs => ([], bs)
  | p :: ps, bs =>
    let (v, bs) := p.read bs
    let (vs, bs) := readEach ps bs
    (v :: vs, bs)

/-- How many bytes a part cannot do without: a whole word, or the length in front. -/
def width : Part → ℕ
  | .field .u8 | .field .bool => 1
  | .field .u16 | .field .i16 => 2
  | .field .u32 | .field .i32 | .field .f32 => 4
  | .field .prefixed | .text => 2

/-- A length stands in front of the part. -/
def isPrefixed : Part → Bool
  | .field .prefixed | .text => true
  | _ => false

/-- The bytes that a value of a part is read from. -/
inductive Spells : Bytes → Part → Value → Prop where
  /-- Those that are written for it. -/
  | field {f : Field} (h : f.Fits) : Spells f.write (.field f.kind) (.field f)
  /-- Any byte but zero is true. -/
  | bool (b : UInt8) : Spells [b] (.field .bool) (.field (.bool (b != 0)))
  /-- A length and as many bytes, of which the text is made. -/
  | text {bs : Bytes} (h : bs.length ≤ Bytes.maxPrefixed) :
      Spells (Bytes.behindLength bs) .text (.text (Utf8.decode bs))

/-- What reading a part takes off the front, given what it answers and what it leaves. -/
inductive Takes (p : Part) : Bytes → Option Value → Bytes → Prop where
  /-- The bytes of the value. -/
  | value {taken rest : Bytes} {v : Value} (h : Spells taken p v) : p.Takes taken (some v) rest
  /-- Nothing, if there are too few bytes for a word or a length. -/
  | short {rest : Bytes} (h : rest.length < p.width) : p.Takes [] none rest
  /-- The length, if fewer bytes than it says are behind it. -/
  | cut {n : UInt16} {rest : Bytes} (hp : p.isPrefixed = true) (h : rest.length < n.toNat) :
      p.Takes (Bytes.be16 n) none rest

/-- What reading parts in a row takes off the front. -/
inductive TakesEach : List Part → Bytes → List (Option Value) → Bytes → Prop where
  | nil {rest : Bytes} : TakesEach [] [] [] rest
  | cons {p : Part} {ps : List Part} {taken later rest : Bytes} {v : Option Value}
      {vs : List (Option Value)} (h : p.Takes taken v (later ++ rest))
      (hs : TakesEach ps later vs rest) : TakesEach (p :: ps) (taken ++ later) (v :: vs) rest

end Part

/-! ## What a read takes -/

namespace Reader

variable {α β : Type}

/-- The reader takes the bytes of a value, or nothing if there are fewer than `w`. -/
def TakesWord (r : Reader α) (w : ℕ) (spells : Bytes → α → Prop) : Prop :=
  ∀ bs, (∃ taken a rest, bs = taken ++ rest ∧ spells taken a ∧ r bs = (some a, rest)) ∨
    (bs.length < w ∧ r bs = (none, bs))

theorem map_of_some {r : Reader α} {bs rest : Bytes} {a : α} (h : r bs = (some a, rest))
    (f : α → β) : (do return f (← r) : Reader β) bs = (some (f a), rest) := bind_of_some h _

theorem map_of_none {r : Reader α} {bs rest : Bytes} (h : r bs = (none, rest))
    (f : α → β) : (do return f (← r) : Reader β) bs = (none, rest) := by
  rw [bind_apply, h]

/-- What is made of a value is made of what that is made of. -/
theorem map_map {γ : Type} (r : Reader α) (f : α → β) (g : β → γ) :
    (do return g (← (do return f (← r) : Reader β)) : Reader γ) = do return g (f (← r)) := by
  funext bs
  rw [bind_apply, bind_apply, bind_apply]
  rcases r bs with ⟨_ | a, rest⟩ <;> rfl

theorem TakesWord.map {r : Reader α} {w : ℕ} {spells : Bytes → α → Prop}
    {spells' : Bytes → β → Prop} (h : r.TakesWord w spells) (f : α → β)
    (hf : ∀ taken a, spells taken a → spells' taken (f a)) :
    (do return f (← r) : Reader β).TakesWord w spells' := by
  intro bs
  rcases h bs with ⟨taken, a, rest, hbs, hspells, hr⟩ | ⟨hshort, hr⟩
  · exact Or.inl ⟨taken, f a, rest, hbs, hf taken a hspells, map_of_some hr f⟩
  · exact Or.inr ⟨hshort, map_of_none hr f⟩

theorem take_of_lt {n : ℕ} {bs : Bytes} (h : bs.length < n) : take n bs = (none, bs) :=
  if_neg (by rw [List.length_take]; omega)

theorem takesWord_u8 : u8.TakesWord 1 fun taken b => taken = [b] := by
  intro bs
  cases bs with
  | nil => exact Or.inr ⟨Nat.one_pos, map_of_none (take_of_lt Nat.one_pos) _⟩
  | cons b rest => exact Or.inl ⟨[b], b, rest, rfl, rfl, u8_cons b rest⟩

theorem takesWord_u16 : u16.TakesWord 2 fun taken w => taken = Bytes.be16 w := by
  intro bs
  by_cases h : bs.length < 2
  · exact Or.inr ⟨h, map_of_none (take_of_lt h) _⟩
  · obtain ⟨w, rest, rfl, -⟩ :=
      Bytes.exists_be16_append (Nat.add_sub_cancel' (Nat.not_lt.1 h)).symm
    exact Or.inl ⟨_, w, rest, rfl, rfl, u16_be16 w rest⟩

theorem takesWord_u32 : u32.TakesWord 4 fun taken w => taken = Bytes.be32 w := by
  intro bs
  by_cases h : bs.length < 4
  · exact Or.inr ⟨h, map_of_none (take_of_lt h) _⟩
  · obtain ⟨w, rest, rfl, -⟩ :=
      Bytes.exists_be32_append (Nat.add_sub_cancel' (Nat.not_lt.1 h)).symm
    exact Or.inl ⟨_, w, rest, rfl, rfl, u32_be32 w rest⟩

/-- A byte string is read as far as its length can say. -/
theorem prefixed_behindLength (bs rest : Bytes) :
    prefixed (Bytes.behindLength bs ++ rest) = (some (bs.take Bytes.maxPrefixed), rest) := by
  have hlength : (bs.take Bytes.maxPrefixed).length < 2 ^ 16 :=
    Nat.lt_succ_of_le (List.length_take_le _ _)
  rw [Bytes.behindLength, List.append_assoc]
  exact prefixed_append (UInt16.toNat_ofNat_of_lt' hlength).symm rest

/-- **A byte string behind its length** is there, or the length is not, or it is cut. -/
theorem prefixed_cases (bs : Bytes) :
    (∃ v rest, v.length ≤ Bytes.maxPrefixed ∧ bs = Bytes.behindLength v ++ rest ∧
      prefixed bs = (some v, rest)) ∨
    (bs.length < 2 ∧ prefixed bs = (none, bs)) ∨
    ∃ n rest, bs = Bytes.be16 n ++ rest ∧ rest.length < n.toNat ∧ prefixed bs = (none, rest) := by
  rcases takesWord_u16 bs with ⟨_, n, rest, rfl, rfl, hn⟩ | ⟨hshort, hn⟩
  · by_cases h : rest.length < n.toNat
    · have hcut : prefixed (Bytes.be16 n ++ rest) = (none, rest) :=
        (bind_of_some hn _).trans (take_of_lt h)
      exact Or.inr (Or.inr ⟨n, rest, rfl, h, hcut⟩)
    · obtain ⟨v, left, rfl, hv, -⟩ :=
        Bytes.exists_append (Nat.add_sub_cancel' (Nat.not_lt.1 h)).symm
      have hfits : v.length ≤ Bytes.maxPrefixed := hv ▸ Nat.le_of_lt_succ n.toNat_lt
      refine Or.inl ⟨v, left, hfits, ?_, prefixed_append hv left⟩
      rw [Bytes.behindLength, List.take_of_length_le hfits, hv, UInt16.ofNat_toNat,
        List.append_assoc]
  · exact Or.inr (Or.inl ⟨hshort, by rw [prefixed, bind_apply, hn]⟩)

end Reader

namespace Part

open Reader (TakesWord)

theorem takes_of_word {p : Part}
    (h : p.read.TakesWord p.width fun taken v => Spells taken p v) (bs : Bytes) :
    ∃ taken, bs = taken ++ (p.read bs).2 ∧ p.Takes taken (p.read bs).1 (p.read bs).2 := by
  rcases h bs with ⟨taken, v, rest, hbs, hspells, hr⟩ | ⟨hshort, hr⟩
  · rw [hr]
    exact ⟨taken, hbs, .value hspells⟩
  · rw [hr]
    exact ⟨[], rfl, .short hshort⟩

/-- What is made of a byte string behind its length takes what that takes. -/
theorem takes_of_prefixed {p : Part} {f : Bytes → Value}
    (hread : p.read = do return f (← Reader.prefixed)) (hp : p.isPrefixed = true)
    (hwidth : p.width = 2)
    (hspells : ∀ v : Bytes, v.length ≤ Bytes.maxPrefixed →
      Spells (Bytes.behindLength v) p (f v)) (bs : Bytes) :
    ∃ taken, bs = taken ++ (p.read bs).2 ∧ p.Takes taken (p.read bs).1 (p.read bs).2 := by
  rw [hread]
  rcases Reader.prefixed_cases bs with ⟨v, rest, hv, hbs, hr⟩ | ⟨hshort, hr⟩ |
    ⟨n, rest, hbs, hcut, hr⟩
  · rw [Reader.map_of_some hr]
    exact ⟨_, hbs, .value (hspells v hv)⟩
  · rw [Reader.map_of_none hr]
    exact ⟨[], rfl, .short (hwidth ▸ hshort)⟩
  · rw [Reader.map_of_none hr]
    exact ⟨_, hbs, .cut hp hcut⟩

/-- **What a read takes**, of every part and of all bytes. -/
theorem read_takes (p : Part) (bs : Bytes) :
    ∃ taken, bs = taken ++ (p.read bs).2 ∧ p.Takes taken (p.read bs).1 (p.read bs).2 := by
  have hword : ∀ {k : Field.Kind}, (Field.read k).TakesWord (width (.field k))
      (fun taken f => Spells taken (.field k) (.field f)) → ∃ taken,
        bs = taken ++ (read (.field k) bs).2 ∧
        (field k).Takes taken (read (.field k) bs).1 (read (.field k) bs).2 :=
    fun h => takes_of_word (h.map Value.field fun _ _ => id) bs
  cases p with
  | text =>
    exact takes_of_prefixed (Reader.map_map _ _ _) rfl rfl (fun v hv => .text hv) bs
  | field k =>
    cases k with
    | u8 => exact hword (Reader.takesWord_u8.map _ fun _ b h => h ▸ .field (f := .u8 b) trivial)
    | bool =>
      have hbool : Reader.bool.TakesWord 1 fun taken b =>
          Spells taken (.field .bool) (.field (.bool b)) :=
        Reader.takesWord_u8.map _ fun _ b h => h ▸ .bool b
      exact hword (hbool.map _ fun _ _ => id)
    | u16 => exact hword (Reader.takesWord_u16.map _ fun _ w h => h ▸ .field (f := .u16 w) trivial)
    | i16 =>
      have hsigned : Reader.i16.TakesWord 2 fun taken i => taken = Bytes.ofInt16 i :=
        Reader.takesWord_u16.map _ fun _ w h => by rw [h, Bytes.ofInt16, UInt16.toUInt16_toInt16]
      exact hword (hsigned.map _ fun _ i h => h ▸ .field (f := .i16 i) trivial)
    | u32 => exact hword (Reader.takesWord_u32.map _ fun _ w h => h ▸ .field (f := .u32 w) trivial)
    | i32 =>
      have hsigned : Reader.i32.TakesWord 4 fun taken i => taken = Bytes.ofInt32 i :=
        Reader.takesWord_u32.map _ fun _ w h => by rw [h, Bytes.ofInt32, UInt32.toUInt32_toInt32]
      exact hword (hsigned.map _ fun _ i h => h ▸ .field (f := .i32 i) trivial)
    | f32 =>
      have hbits : Reader.f32.TakesWord 4 fun taken a => taken = Bytes.ofBinary32 a :=
        Reader.takesWord_u32.map _ fun _ _ h => h
      exact hword (hbits.map _ fun _ a h => h ▸ .field (f := .f32 a) trivial)
    | «prefixed» =>
      exact takes_of_prefixed (p := .field .prefixed) (Reader.map_map _ _ _) rfl rfl
        (fun v hv => .field (f := .prefixed v) hv) bs

/-! ## Parts in a row -/

theorem readEach_cons (p : Part) (ps : List Part) (bs : Bytes) :
    readEach (p :: ps) bs =
      ((p.read bs).1 :: (readEach ps (p.read bs).2).1, (readEach ps (p.read bs).2).2) := rfl

/-- **What reads take** that follow one another. -/
theorem readEach_takes (ps : List Part) (bs : Bytes) :
    ∃ taken, bs = taken ++ (readEach ps bs).2 ∧
      TakesEach ps taken (readEach ps bs).1 (readEach ps bs).2 := by
  induction ps generalizing bs with
  | nil => exact ⟨[], rfl, .nil⟩
  | cons p ps ih =>
    obtain ⟨taken, hbs, htakes⟩ := p.read_takes bs
    obtain ⟨later, hrest, hlater⟩ := ih (p.read bs).2
    rw [hrest] at htakes
    refine ⟨taken ++ later, ?_, .cons htakes hlater⟩
    rw [readEach_cons, List.append_assoc, ← hrest]
    exact hbs

theorem read_write (f : Field) (rest : Bytes) :
    (field f.kind).read (f.write ++ rest) = (some (.field f.kept), rest) := by
  have hread : Field.read f.kind (f.write ++ rest) = (some f.kept, rest) := by
    cases f with
    | u8 b => exact Reader.map_of_some (Reader.u8_cons b rest) _
    | bool b => exact Reader.map_of_some (Reader.bool_ofBool b rest) _
    | u16 w => exact Reader.map_of_some (Reader.u16_be16 w rest) _
    | i16 i => exact Reader.map_of_some (Reader.i16_ofInt16 i rest) _
    | u32 w => exact Reader.map_of_some (Reader.u32_be32 w rest) _
    | i32 i =>
      have hsigned : Reader.i32 (Bytes.ofInt32 i ++ rest) = (some i, rest) := by
        rw [← Int32.toInt32_toUInt32 i]
        exact Reader.map_of_some (Reader.u32_be32 _ rest) _
      exact Reader.map_of_some hsigned _
    | f32 a => exact Reader.map_of_some (Reader.f32_ofBinary32 a rest) _
    | «prefixed» v => exact Reader.map_of_some (Reader.prefixed_behindLength v rest) _
  exact Reader.map_of_some hread _

/-- **Fields come back** in the order in which they were written, byte strings cut. -/
theorem readEach_write (fs : List Field) (rest : Bytes) :
    readEach (fs.map fun f => .field f.kind) (fs.flatMap Field.write ++ rest) =
      (fs.map fun f => some (.field f.kept), rest) := by
  induction fs with
  | nil => rfl
  | cons f fs ih =>
    rw [List.flatMap_cons, List.append_assoc, List.map_cons, readEach_cons, read_write, ih]
    rfl

/-- **Readers and writers fit together.**  Fields that are written in a row are read as the
    same fields, with nothing left, just if no byte string among them is longer than its
    length can say.  And whatever parts are read off whatever bytes: what has been taken and
    what is left are all there was, and each read takes the bytes of its value; or nothing
    if there are too few; or, of something behind a length, that length alone. -/
theorem fits_together :
    (∀ fs : List Field,
      readEach (fs.map fun f => .field f.kind) (fs.flatMap Field.write) =
        (fs.map fun f => some (.field f), []) ↔ ∀ f ∈ fs, f.Fits) ∧
    ∀ (ps : List Part) (bs : Bytes), ∃ taken,
      TakesEach ps taken (readEach ps bs).1 (readEach ps bs).2 ∧
      bs = taken ++ (readEach ps bs).2 ∧ taken.length ≤ bs.length ∧
      Reader.remaining (readEach ps bs).2 =
        (some (bs.length - taken.length), (readEach ps bs).2) := by
  refine ⟨fun fs => ?_, fun ps bs => ?_⟩
  · have hback := readEach_write fs []
    rw [List.append_nil] at hback
    rw [hback, Prod.mk.injEq, and_iff_left rfl, List.map_inj_left]
    refine forall₂_congr fun f _ => ?_
    rw [Option.some_inj, Value.field.injEq, Field.kept_eq_self_iff]
  · obtain ⟨taken, hbs, htakes⟩ := readEach_takes ps bs
    have hlength : bs.length = taken.length + (readEach ps bs).2.length := by
      rw [← List.length_append, ← hbs]
    refine ⟨taken, htakes, hbs, hlength ▸ Nat.le_add_right _ _, ?_⟩
    rw [hlength, Nat.add_sub_cancel_left]
    rfl

/-- A whole number, a number, a truth value and a byte string, with nothing between. -/
theorem fits_together_mixed :
    let fs : List Field := [.i16 (-2), .f32 ⟨0xbfc00000⟩, .bool true, .prefixed [0, 3, 97]]
    (∀ f ∈ fs, f.Fits) ∧
      readEach [.field .i16, .field .f32, .field .bool, .field .prefixed]
        [0xff, 0xfe, 0xbf, 0xc0, 0, 0, 1, 0, 3, 0, 3, 97] =
          (fs.map fun f => some (.field f), []) := by
  intro fs
  have hfits : ∀ f ∈ fs, f.Fits := by simp [fs, Field.Fits, Bytes.maxPrefixed]
  exact ⟨hfits, (fits_together.1 fs).2 hfits⟩

/-- Reading goes on behind a length of which the bytes are missing. -/
example : readEach [.field .u32, .field .prefixed, .field .u8] [0, 3, 97] =
    ([none, none, some (.field (.u8 97))], []) := by decide

end Part

end Netplay
