import Mathlib.Algebra.Group.Nat.Defs
import ConfigTree.Text.Utf8.RoundTrip

/-!
The letters and digits of ASCII by their code points, and ASCII in UTF-8. Characters of ASCII are
single octets, and an octet of ASCII never stands for a part of another character.
-/

namespace ConfigTree.Text

theorem isAlpha_iff {c : Char} :
    c.isAlpha = true ↔
      (0x41 ≤ c.toNat ∧ c.toNat ≤ 0x5A) ∨ (0x61 ≤ c.toNat ∧ c.toNat ≤ 0x7A) := by
  change (decide (c.val ≥ 'A'.val ∧ c.val ≤ 'Z'.val) ||
    (decide (c.val ≥ 'a'.val) && decide (c.val ≤ 'z'.val))) = true ↔ _
  simp only [Bool.or_eq_true, Bool.and_eq_true, decide_eq_true_eq]
  rfl

theorem isDigit_iff {c : Char} : c.isDigit = true ↔ 0x30 ≤ c.toNat ∧ c.toNat ≤ 0x39 := by
  change (decide (c.val ≥ '0'.val) && decide (c.val ≤ '9'.val)) = true ↔ _
  simp only [Bool.and_eq_true, decide_eq_true_eq]
  rfl

theorem isAlphanum_iff {c : Char} :
    c.isAlphanum = true ↔ c.isAlpha = true ∨ (0x30 ≤ c.toNat ∧ c.toNat ≤ 0x39) := by
  rw [← isDigit_iff, Char.isAlphanum, Bool.or_eq_true]

namespace Utf8

theorem toNat_ofNat_of_ascii {b : UInt8} (ascii : b < 0x80) :
    (Char.ofNat b.toNat).toNat = b.toNat := by
  rw [UInt8.lt_iff_toNat_lt] at ascii
  simp only [UInt8.reduceToNat] at ascii
  have valid : b.toNat.isValidChar := Or.inl (by omega)
  rw [Char.ofNat, dif_pos valid]
  rfl

namespace Pending

def least (pending : Pending) : Nat :=
  (pending.bits * 64 + pending.low.toNat % 64) * 64 ^ pending.owed

def limit (pending : Pending) : Nat :=
  (pending.bits * 64 + pending.high.toNat % 64 + 1) * 64 ^ pending.owed

/-- A pending character goes on with octets outside ASCII, and can become nothing but a character
outside ASCII. -/
structure Sound (pending : Pending) : Prop where
  low : 0x80 ≤ pending.low.toNat
  high : pending.high.toNat < 0xC0
  wide : 0x80 ≤ pending.least
  valid : pending.limit ≤ 0xD800 ∨ (0xE000 ≤ pending.least ∧ pending.limit ≤ 0x110000)

theorem sound_of_lead {b : UInt8} {pending : Pending} (begun : Utf8.lead b = .begins pending) :
    pending.Sound := by
  simp only [Utf8.lead, UInt8.lt_iff_toNat_lt, ← UInt8.toNat_inj, UInt8.reduceToNat] at begun
  split at begun
  · cases begun
  split at begun
  · cases begun
  -- the lead octets of two, of three and of four octets
  split at begun
  · cases begun
    constructor <;> simp only [least, limit, UInt8.reduceToNat] <;> omega
  split at begun
  · cases begun
    constructor <;> simp only [least, limit, apply_ite UInt8.toNat, UInt8.reduceToNat] <;> grind
  split at begun
  · cases begun
    constructor <;> simp only [least, limit, apply_ite UInt8.toNat, UInt8.reduceToNat] <;> grind
  · cases begun

section
variable {pending : Pending} {b : UInt8} (sound : pending.Sound)
  (inside : pending.low ≤ b ∧ b ≤ pending.high)
include sound inside

theorem least_le_extend : pending.least ≤ pending.extend b * 64 ^ pending.owed := by
  have low := sound.low
  have high := sound.high
  obtain ⟨above, below⟩ := inside
  rw [UInt8.le_iff_toNat_le] at above below
  refine Nat.mul_le_mul_right _ ?_
  rw [extend]
  omega

theorem extend_le_limit : (pending.extend b + 1) * 64 ^ pending.owed ≤ pending.limit := by
  have low := sound.low
  have high := sound.high
  obtain ⟨above, below⟩ := inside
  rw [UInt8.le_iff_toNat_le] at above below
  refine Nat.mul_le_mul_right _ ?_
  rw [extend]
  omega

theorem Sound.next {after : Pending} (begun : pending.next b = .begins after) : after.Sound := by
  have least := least_le_extend sound inside
  have limit := extend_le_limit sound inside
  unfold Pending.next at begun
  split at begun
  · cases begun
  · next owed more =>
    cases begun
    rw [more, Nat.pow_succ', ← Nat.mul_assoc] at least limit
    have lower : (⟨owed, 0x80, 0xBF, pending.extend b⟩ : Pending).least =
        pending.extend b * 64 * 64 ^ owed := by
      simp only [Pending.least, UInt8.reduceToNat, Nat.reduceMod, Nat.add_zero]
    have upper : (⟨owed, 0x80, 0xBF, pending.extend b⟩ : Pending).limit =
        (pending.extend b + 1) * 64 * 64 ^ owed := by
      simp only [Pending.limit, UInt8.reduceToNat, Nat.reduceMod, Nat.add_mul, Nat.add_assoc,
        Nat.reduceAdd, Nat.one_mul]
    rw [← lower] at least
    rw [← upper] at limit
    refine ⟨Nat.le_refl _, (by decide : 0xBF < 0xC0), Nat.le_trans sound.wide least, ?_⟩
    rcases sound.valid with small | ⟨large, bounded⟩
    · exact .inl (Nat.le_trans limit small)
    · exact .inr ⟨Nat.le_trans large least, Nat.le_trans limit bounded⟩

theorem Sound.single {c : Char} (ended : pending.next b = .single c) : 0x80 ≤ c.toNat := by
  have least := least_le_extend sound inside
  have limit := extend_le_limit sound inside
  have wide := sound.wide
  have bounds := sound.valid
  unfold Pending.next at ended
  split at ended
  · next last =>
    cases ended
    rw [last, Nat.pow_zero, Nat.mul_one] at least limit
    have valid : (pending.extend b).isValidChar := by
      rw [Nat.isValidChar]
      omega
    have value : (Char.ofNat (pending.extend b)).toNat = pending.extend b := by
      rw [Char.ofNat, dif_pos valid]
      rfl
    omega
  · cases ended

end

end Pending

def Sound (state : Option Pending) : Prop :=
  ∀ pending ∈ state, pending.Sound

theorem sound_none : Sound none := by
  intro pending held
  cases held

theorem sound_settle {before : List Char} {next : Lead}
    (sound : ∀ pending, next = .begins pending → pending.Sound) :
    Sound (step.settle before next).2 := by
  intro pending held
  cases next with
  | single c => cases held
  | begins next =>
    cases held
    exact sound pending rfl
  | stray => cases held

theorem sound_step {state : Option Pending} (sound : Sound state) (b : UInt8) :
    Sound (step state b).2 := by
  unfold step
  split
  · exact sound_settle fun _ => Pending.sound_of_lead
  · next pending =>
    split
    · next inside => exact sound_settle fun _ => (sound pending rfl).next inside
    · exact sound_settle fun _ => Pending.sound_of_lead

theorem decodeFrom_append_of_ascii {state : Option Pending} (sound : Sound state) {b : UInt8}
    (ascii : b < 0x80) (octets rest : List UInt8) :
    decodeFrom state (octets ++ b :: rest) = decodeFrom state octets ++ decode (b :: rest) := by
  induction octets generalizing state with
  | nil =>
    cases state with
    | none => rfl
    | some pending =>
      have outside : ¬(pending.low ≤ b ∧ b ≤ pending.high) := by
        rintro ⟨low, -⟩
        have wide := (sound pending rfl).low
        rw [UInt8.lt_iff_toNat_lt] at ascii
        rw [UInt8.le_iff_toNat_le] at low
        simp only [UInt8.reduceToNat] at ascii
        omega
      rw [decode_cons_of_ascii ascii, List.nil_append, decodeFrom_cons, step, if_neg outside,
        lead_of_ascii ascii]
      rfl
  | cons first tail ih =>
    rw [List.cons_append, decodeFrom_cons, decodeFrom_cons, ih (sound_step sound first),
      List.append_assoc]

/-- An octet of ASCII ends what stands before it, complete or not. -/
theorem decode_append_of_ascii {b : UInt8} (ascii : b < 0x80) (octets rest : List UInt8) :
    decode (octets ++ b :: rest) = decode octets ++ decode (b :: rest) :=
  decodeFrom_append_of_ascii sound_none ascii octets rest

theorem eq_of_lead {b : UInt8} {c : Char} (single : lead b = .single c) :
    b < 0x80 ∧ c = Char.ofNat b.toNat := by
  unfold lead at single
  split at single
  · next ascii =>
    cases single
    exact ⟨ascii, rfl⟩
  all_goals
    repeat' split at single
    all_goals cases single

theorem mem_settle {before : List Char} {next : Lead} {c : Char} (ascii : c.toNat < 0x80)
    (member : c ∈ (step.settle before next).1) : c ∈ before ∨ next = .single c := by
  cases next with
  | single other =>
    rcases List.mem_append.mp member with earlier | last
    · exact .inl earlier
    · exact .inr (congrArg Lead.single (List.mem_singleton.mp last).symm)
  | begins pending => exact .inl member
  | stray =>
    rcases List.mem_append.mp member with earlier | last
    · exact .inl earlier
    · rw [List.mem_singleton.mp last] at ascii
      exact absurd ascii (by decide)

theorem eq_of_mem_step {state : Option Pending} (sound : Sound state) {b : UInt8} {c : Char}
    (ascii : c.toNat < 0x80) (member : c ∈ (step state b).1) :
    b < 0x80 ∧ c = Char.ofNat b.toNat := by
  unfold step at member
  split at member
  · rcases mem_settle ascii member with earlier | single
    · cases earlier
    · exact eq_of_lead single
  · next pending =>
    split at member
    · next inside =>
      rcases mem_settle ascii member with earlier | single
      · cases earlier
      · have wide := (sound pending rfl).single inside single
        omega
    · rcases mem_settle ascii member with earlier | single
      · rw [List.mem_singleton.mp earlier] at ascii
        exact absurd ascii (by decide)
      · exact eq_of_lead single

theorem mem_of_mem_decodeFrom {state : Option Pending} (sound : Sound state)
    {octets : List UInt8} {c : Char} (ascii : c.toNat < 0x80)
    (member : c ∈ decodeFrom state octets) : UInt8.ofNat c.toNat ∈ octets := by
  induction octets generalizing state with
  | nil =>
    cases state with
    | none => cases member
    | some pending =>
      rw [List.mem_singleton.mp member] at ascii
      exact absurd ascii (by decide)
  | cons b rest ih =>
    rw [decodeFrom_cons] at member
    rcases List.mem_append.mp member with settled | later
    · obtain ⟨small, rfl⟩ := eq_of_mem_step sound ascii settled
      rw [toNat_ofNat_of_ascii small, UInt8.ofNat_toNat]
      exact List.mem_cons_self
    · exact List.mem_cons_of_mem b (ih (sound_step sound b) later)

theorem mem_of_mem_decode {octets : List UInt8} {c : Char} (ascii : c.toNat < 0x80)
    (member : c ∈ decode octets) : UInt8.ofNat c.toNat ∈ octets :=
  mem_of_mem_decodeFrom sound_none ascii member

theorem le_of_head?_decodeFrom {pending : Pending} (sound : pending.Sound) (octets : List UInt8) :
    ∀ c ∈ (decodeFrom (some pending) octets).head?, 0x80 ≤ c.toNat := by
  induction octets generalizing pending with
  | nil =>
    rintro c ⟨⟩
    decide
  | cons b rest ih =>
    rw [decodeFrom_cons, step]
    by_cases inside : pending.low ≤ b ∧ b ≤ pending.high
    · rw [if_pos inside]
      cases next : pending.next b with
      | single other =>
        rintro c ⟨⟩
        exact sound.single inside next
      | begins after => exact ih (sound.next inside next)
      | stray => rw [Pending.next] at next; split at next <;> cases next
    · rw [if_neg inside]
      cases lead b <;> rintro c ⟨⟩ <;> decide

theorem head?_of_head?_decode {octets : List UInt8} {c : Char} (ascii : c.toNat < 0x80)
    (first : (decode octets).head? = some c) : octets.head? = some (UInt8.ofNat c.toNat) := by
  cases octets with
  | nil => cases first
  | cons b rest =>
    cases begun : lead b with
    | single other =>
      obtain ⟨small, -⟩ := eq_of_lead begun
      rw [decode_cons_of_ascii small] at first
      cases first
      rw [toNat_ofNat_of_ascii small, UInt8.ofNat_toNat]
      rfl
    | begins pending =>
      rw [decode_of_begins begun] at first
      have wide := le_of_head?_decodeFrom (Pending.sound_of_lead begun) rest c first
      omega
    | stray =>
      rw [decode, decodeFrom_cons, step, begun] at first
      cases first
      exact absurd ascii (by decide)

theorem decode_of_ascii {octets : List UInt8} (ascii : ∀ b ∈ octets, b < 0x80) :
    decode octets = octets.map fun b => Char.ofNat b.toNat := by
  induction octets with
  | nil => rfl
  | cons b rest ih =>
    rw [decode_cons_of_ascii (ascii b List.mem_cons_self), List.map_cons,
      ih fun other member => ascii other (List.mem_cons_of_mem _ member)]

theorem encodeChar_of_ascii {c : Char} (ascii : c.toNat < 0x80) :
    encodeChar c = [UInt8.ofNat c.toNat] := by
  rw [encodeChar]
  exact if_pos ascii

theorem encodeChar_ne_nil (c : Char) : encodeChar c ≠ [] := by
  unfold encodeChar
  dsimp only
  split
  · exact List.cons_ne_nil _ _
  split
  · exact List.cons_ne_nil _ _
  split
  · exact List.cons_ne_nil _ _
  · exact List.cons_ne_nil _ _

theorem encode_of_ascii {text : List Char} (ascii : ∀ c ∈ text, c.toNat < 0x80) :
    encode text = text.map fun c => UInt8.ofNat c.toNat := by
  induction text with
  | nil => rfl
  | cons c rest ih =>
    rw [encode_cons, encodeChar_of_ascii (ascii c List.mem_cons_self), List.map_cons,
      ih fun other member => ascii other (List.mem_cons_of_mem _ member)]
    rfl

theorem le_toNat_of_mem_encodeChar {c : Char} {b : UInt8} (wide : 0x80 ≤ c.toNat)
    (member : b ∈ encodeChar c) : 0x80 ≤ b.toNat := by
  have top : c.toNat < 0x110000 := by
    rcases c.valid with low | high
    · exact Nat.lt_trans low (by decide)
    · exact high.2
  have carried (n : Nat) : 0x80 ≤ (continuation n).toNat := by
    rw [toNat_continuation]
    exact Nat.le_add_right _ _
  have leading {n : Nat} (low : 0x80 ≤ n) (high : n < 256) : 0x80 ≤ (UInt8.ofNat n).toNat := by
    rw [UInt8.toNat_ofNat_of_lt' high]
    exact low
  rw [encodeChar] at member
  simp only [Nat.not_lt.mpr wide, if_false] at member
  split at member
  · simp only [List.mem_cons, List.not_mem_nil, or_false] at member
    rcases member with rfl | rfl
    · apply leading <;> omega
    · exact carried _
  split at member
  · simp only [List.mem_cons, List.not_mem_nil, or_false] at member
    rcases member with rfl | rfl | rfl
    · apply leading <;> omega
    · exact carried _
    · exact carried _
  · simp only [List.mem_cons, List.not_mem_nil, or_false] at member
    rcases member with rfl | rfl | rfl | rfl
    · apply leading <;> omega
    · exact carried _
    · exact carried _
    · exact carried _

theorem eq_of_mem_encodeChar {c : Char} {b : UInt8} (ascii : b < 0x80)
    (member : b ∈ encodeChar c) : c = Char.ofNat b.toNat := by
  by_cases narrow : c.toNat < 0x80
  · rw [encodeChar_of_ascii narrow, List.mem_singleton] at member
    rw [member, UInt8.toNat_ofNat_of_lt' (Nat.lt_trans narrow (by decide)), Char.ofNat_toNat]
  · have wide := le_toNat_of_mem_encodeChar (Nat.not_lt.mp narrow) member
    rw [UInt8.lt_iff_toNat_lt] at ascii
    simp only [UInt8.reduceToNat] at ascii
    omega

theorem mem_of_mem_encode {text : List Char} {b : UInt8} (ascii : b < 0x80)
    (member : b ∈ encode text) : Char.ofNat b.toNat ∈ text := by
  obtain ⟨c, inside, octet⟩ := List.mem_flatMap.mp member
  rw [← eq_of_mem_encodeChar ascii octet]
  exact inside

end Utf8

end ConfigTree.Text
