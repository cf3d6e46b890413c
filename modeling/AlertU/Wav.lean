import AlertU.BinaryFloat
import AlertU.LittleEndian
import Mathlib.Data.Int.ConditionallyCompleteOrder
import Mathlib.Data.Rat.Floor
import Mathlib.Data.List.GetD

/-! The countdown tick as a WAV file: the fade at the ends of its samples, the 16-bit samples they become
and the file around them. A single-precision number is known by its value; how products are rounded is a
parameter. -/

open LittleEndian

namespace AlertU

/-- The value of an `f32`; the sign of zero does not matter here. -/
inductive F32 where
  | finite (value : ℚ)
  | inf (negative : Bool)
  | nan
  deriving DecidableEq

/-- How a value in the range of `f32` is rounded: small integers are exact. -/
structure Rounding where
  round : ℚ → ℚ
  mono : Monotone round
  exact : ∀ n : ℤ, |n| ≤ 2 ^ 24 → round n = n

/-- Single precision: to the nearest, with 24 bits. -/
def single : Rounding where
  round := BinaryFloat.round 23 (-149)
  mono := BinaryFloat.round_mono
  exact n hn := BinaryFloat.round_eq_self (BinaryFloat.representable_int hn (by decide))

namespace F32

/-- The comparison of two samples, which is false of what is not a number. -/
def Le : F32 → F32 → Prop
  | .finite v, .finite w => v ≤ w
  | .inf true, .finite _ | .inf true, .inf _ | .finite _, .inf false | .inf false, .inf false => True
  | _, _ => False

variable (r : Rounding)

/-- The product with a finite factor, where it does not overflow. -/
def scale (s : F32) (gain : ℚ) : F32 :=
  match s with
  | .finite v => .finite (r.round (v * gain))
  | .inf negative => if gain = 0 then .nan else .inf (if gain < 0 then !negative else negative)
  | .nan => .nan

/-- `f32::clamp`. -/
def clamp (s : F32) (lo hi : ℚ) : F32 :=
  match s with
  | .finite v => .finite (if v < lo then lo else if hi < v then hi else v)
  | .inf negative => .finite (if negative then lo else hi)
  | .nan => .nan

def truncate (v : ℚ) : ℤ := if 0 ≤ v then ⌊v⌋ else ⌈v⌉

/-- `as i16`. -/
def toI16 : F32 → Int16
  | .finite v => .ofIntClamp (truncate v)
  | .inf negative => if negative then .minValue else .maxValue
  | .nan => 0

/-- A sample in 16 bits. -/
def quantise (s : F32) : Int16 := ((s.clamp (-1) 1).scale r 32767).toI16

end F32

namespace Sounds

/-- Sample rate of the generated file. -/
def SAMPLE_RATE : UInt32 := 44100

def u32 (n : UInt32) : List UInt8 := toBytes 4 n.toNat
def u16 (n : UInt16) : List UInt8 := toBytes 2 n.toNat

def ascii (text : String) : List UInt8 := text.toList.map fun c => UInt8.ofNat c.toNat

/-- What stands between the two sizes: the format, and the name of the data. -/
def format : List UInt8 :=
  ascii "WAVE" ++ ascii "fmt " ++ u32 16 ++ u16 1 ++ u16 1 ++ u32 SAMPLE_RATE ++ u32 (SAMPLE_RATE * 2) ++
    u16 2 ++ u16 16 ++ ascii "data"

def header (dataLen : UInt32) : List UInt8 :=
  ascii "RIFF" ++ u32 (36 + dataLen) ++ format ++ u32 dataLen

def payload (values : List Int16) : List UInt8 := values.flatMap fun v => u16 v.toUInt16

/-- Encode mono samples as a 16-bit PCM WAV file. The length of the data wraps. -/
def encodeWav (r : Rounding) (samples : List F32) : List UInt8 :=
  header (UInt32.ofNat (samples.length * 2)) ++ payload (samples.map (F32.quantise r))

/-- `i16::from_le_bytes` of each two bytes. -/
def i16s : List UInt8 → List Int16
  | a :: b :: rest => (UInt16.ofNat (ofBytes [a, b])).toInt16 :: i16s rest
  | _ => []

/-- Decode the samples back out of an encoded WAV. -/
def samplesOf (wav : List UInt8) : List Int16 := i16s (wav.drop 44)

def gain (r : Rounding) (i n : ℕ) : ℚ := r.round (r.round i / r.round n)

/-- One round of the fade: the sample at `i` and the one as far from the end. -/
def fadeStep (r : Rounding) (n last : ℕ) (samples : List F32) (i : ℕ) : List F32 :=
  (samples.modify i (F32.scale r · (gain r i n))).modify (last - i) (F32.scale r · (gain r i n))

/-- The rounds of a fade over `ms` milliseconds, each of which reaches both ends. -/
def fadeLength (ms length : ℕ) : ℕ := min (SAMPLE_RATE.toNat * ms / 1000) (length / 2)

/-- Fade both ends to silence over `ms` milliseconds. -/
def fadeEnds (r : Rounding) (ms : ℕ) (samples : List F32) : List F32 :=
  let n := fadeLength ms samples.length
  if n = 0 then samples
  else (List.range n).foldl (fadeStep r n (samples.length - 1)) samples

/-- The countdown tick: 50 milliseconds of a wave. -/
def warningTick (r : Rounding) (wave : ℕ → F32) : List F32 :=
  fadeEnds r 6 ((List.range (SAMPLE_RATE.toNat * 5 / 100)).map wave)

variable {r : Rounding} {samples : List F32}

theorem i16s_payload (values : List Int16) : i16s (payload values) = values := by
  induction values with
  | nil => rfl
  | cons v values ih =>
      show (UInt16.ofNat (ofBytes (toBytes 2 v.toUInt16.toNat))).toInt16 :: i16s (payload values) = _
      have hfits : v.toUInt16.toNat % 256 ^ 2 = v.toUInt16.toNat := Nat.mod_eq_of_lt v.toUInt16.toNat_lt
      rw [ofBytes_toBytes, ih, hfits, UInt16.ofNat_toNat]
      rfl

theorem length_payload (values : List Int16) : (payload values).length = 2 * values.length := by
  induction values with
  | nil => rfl
  | cons v values ih =>
      show (payload values).length + 2 = _
      rw [ih, List.length_cons]
      omega

theorem length_header (dataLen : UInt32) : (header dataLen).length = 44 := by
  simp [header, format, u32, u16, ascii]

/-- A header of 16-bit PCM with one channel. -/
structure IsMonoPcm (wav : List UInt8) : Prop where
  riff : slice 4 0 wav = ascii "RIFF"
  wave : slice 8 8 wav = ascii "WAVEfmt "
  fmtSize : field 4 16 wav = 16
  audioFormat : field 2 20 wav = 1
  channels : field 2 22 wav = 1
  rate : field 4 24 wav = SAMPLE_RATE.toNat
  byteRate : field 4 28 wav = SAMPLE_RATE.toNat * 2
  blockAlign : field 2 32 wav = 2
  bitsPerSample : field 2 34 wav = 16
  data : slice 4 36 wav = ascii "data"

/-- The bytes of the format are those of any file from the eighth on. -/
theorem slice_format (k offset : ℕ) (dataLen : UInt32) (after : List UInt8) (hfits : offset + k ≤ 32) :
    slice k (8 + offset) (header dataLen ++ after) = slice k offset format := by
  have hparts : header dataLen ++ after =
      (ascii "RIFF" ++ u32 (36 + dataLen)) ++ format ++ (u32 dataLen ++ after) := by
    rw [header, List.append_assoc _ (u32 dataLen)]
  have hlength : 8 = (ascii "RIFF" ++ u32 (36 + dataLen)).length := by
    rw [List.length_append, u32, length_toBytes]
    rfl
  rw [hparts, hlength]
  exact slice_part (by exact hfits) _ _

theorem field_format (k offset : ℕ) (dataLen : UInt32) (after : List UInt8) (hfits : offset + k ≤ 32) :
    field k (8 + offset) (header dataLen ++ after) = field k offset format :=
  congrArg ofBytes (slice_format k offset dataLen after hfits)

theorem isMonoPcm_header (dataLen : UInt32) (after : List UInt8) :
    IsMonoPcm (header dataLen ++ after) where
  riff := rfl
  wave := (slice_format 8 0 dataLen after (by decide)).trans (by decide)
  fmtSize := (field_format 4 8 dataLen after (by decide)).trans (by decide)
  audioFormat := (field_format 2 12 dataLen after (by decide)).trans (by decide)
  channels := (field_format 2 14 dataLen after (by decide)).trans (by decide)
  rate := (field_format 4 16 dataLen after (by decide)).trans (by decide)
  byteRate := (field_format 4 20 dataLen after (by decide)).trans (by decide)
  blockAlign := (field_format 2 24 dataLen after (by decide)).trans (by decide)
  bitsPerSample := (field_format 2 26 dataLen after (by decide)).trans (by decide)
  data := (slice_format 4 28 dataLen after (by decide)).trans (by decide)

theorem ofBytes_u32 (n : UInt32) : ofBytes (u32 n) = n.toNat := by
  rw [u32, ofBytes_toBytes]
  exact Nat.mod_eq_of_lt n.toNat_lt

/-- A size that has been written as one part of the file. -/
theorem field_size {offset : ℕ} {before : List UInt8} (hbefore : before.length = offset) (n : UInt32)
    (after : List UInt8) : field 4 offset (before ++ u32 n ++ after) = n.toNat := by
  have hsize : (u32 n).length = 4 := length_toBytes 4 n.toNat
  rw [← ofBytes_u32 n, ← hbefore, field]
  refine congrArg ofBytes ?_
  exact (slice_part (by omega) before after).trans (slice_all hsize)

/-- The two sizes of the header are right as long as the larger of them fits. -/
theorem sizes_iff {n : ℕ} (after : List UInt8) :
    field 4 4 (header (UInt32.ofNat n) ++ after) = 36 + n ∧
      field 4 40 (header (UInt32.ofNat n) ++ after) = n ↔ 36 + n < 2 ^ 32 := by
  have hriff : field 4 4 (header (UInt32.ofNat n) ++ after) = (36 + n) % 2 ^ 32 := by
    rw [header, List.append_assoc, List.append_assoc,
      field_size (show (ascii "RIFF").length = 4 from rfl)]
    simp
  have hdata : field 4 40 (header (UInt32.ofNat n) ++ after) = n % 2 ^ 32 := by
    rw [header, field_size]
    · simp
    · simp [format, u32, u16, ascii]
  rw [hriff, hdata]
  omega

/-! ### The samples -/

theorem truncate_mono : Monotone F32.truncate := by
  intro v w hvw
  unfold F32.truncate
  by_cases hv : 0 ≤ v
  · rw [if_pos hv, if_pos (hv.trans hvw)]
    exact Int.floor_mono hvw
  · rw [if_neg hv]
    by_cases hw : 0 ≤ w
    · rw [if_pos hw]
      exact (Int.ceil_nonpos.mpr (le_of_not_ge hv)).trans (Int.floor_nonneg.mpr hw)
    · rw [if_neg hw]
      exact Int.ceil_mono hvw

theorem truncate_int (n : ℤ) : F32.truncate n = n := by
  rw [F32.truncate, Int.floor_intCast, Int.ceil_intCast, ite_self]

/-- The 16-bit value of a finite sample, which is at most the full scale. -/
def level (r : Rounding) (v : ℚ) : ℤ := F32.truncate (r.round (max (-1) (min v 1) * 32767))

theorem level_mono : Monotone (level r) := by
  intro v w hvw
  refine truncate_mono (r.mono (mul_le_mul_of_nonneg_right ?_ (by norm_num)))
  exact max_le_max_left _ (min_le_min_right _ hvw)

theorem level_full {v : ℚ} (hv : 1 ≤ v) : level r v = 32767 := by
  have hclamped : max (-1) (min v 1) = 1 := by
    rw [min_eq_right hv]
    norm_num
  have hround : r.round 32767 = 32767 := by exact_mod_cast r.exact 32767 (by norm_num)
  rw [level, hclamped, one_mul, hround]
  exact_mod_cast truncate_int 32767

theorem level_negative {v : ℚ} (hv : v ≤ -1) : level r v = -32767 := by
  have hclamped : max (-1) (min v 1) = -1 := max_eq_left ((min_le_left v 1).trans hv)
  have hround : r.round (-32767) = -32767 := by exact_mod_cast r.exact (-32767) (by norm_num)
  rw [level, hclamped, neg_one_mul, hround]
  exact_mod_cast truncate_int (-32767)

theorem level_within (v : ℚ) : -32767 ≤ level r v ∧ level r v ≤ 32767 := by
  rcases le_total v 1 with hv | hv
  · refine ⟨?_, (level_mono hv).trans (level_full le_rfl).le⟩
    rcases le_total (-1) v with hv' | hv'
    · exact (level_negative le_rfl).ge.trans (level_mono hv')
    · exact (level_negative hv').ge
  · rw [level_full hv]
    decide

theorem quantise_finite (v : ℚ) : (F32.quantise r (.finite v)).toInt = level r v := by
  have hclamp : F32.clamp (.finite v) (-1) 1 = .finite (max (-1) (min v 1)) := by
    rw [F32.clamp]
    congr 1
    grind
  obtain ⟨hlow, hhigh⟩ := level_within (r := r) v
  rw [F32.quantise, hclamp]
  exact Int16.toInt_ofIntClamp (le_trans (by decide) hlow) (le_trans hhigh (by decide))

/-- An infinite sample is one at full scale. -/
theorem quantise_inf (negative : Bool) :
    (F32.quantise r (.inf negative)).toInt = if negative then -32767 else 32767 := by
  have hlimit : F32.quantise r (.inf negative) = F32.quantise r (.finite (if negative then -1 else 1)) := by
    cases negative <;> rfl
  rw [hlimit, quantise_finite]
  cases negative with
  | true => exact level_negative le_rfl
  | false => exact level_full le_rfl

/-- Nothing wraps: every sample is at most the full scale, that of a number or not. -/
theorem quantise_within (s : F32) :
    -32767 ≤ (F32.quantise r s).toInt ∧ (F32.quantise r s).toInt ≤ 32767 := by
  cases s with
  | finite v =>
      rw [quantise_finite]
      exact level_within v
  | inf negative =>
      rw [quantise_inf]
      cases negative <;> decide
  | nan =>
      have hzero : F32.quantise r .nan = 0 := rfl
      rw [hzero]
      decide

/-- A larger sample is not quantised to less, an infinite one included. -/
theorem quantise_mono {s t : F32} (h : s.Le t) :
    (F32.quantise r s).toInt ≤ (F32.quantise r t).toInt := by
  have hlow : (F32.quantise r (.inf true)).toInt = -32767 := quantise_inf true
  have hhigh : (F32.quantise r (.inf false)).toInt = 32767 := quantise_inf false
  cases s with
  | finite v =>
      cases t with
      | finite w =>
          rw [quantise_finite, quantise_finite]
          exact level_mono h
      | inf negative =>
          cases negative with
          | true => cases h
          | false => exact hhigh ▸ (quantise_within _).2
      | nan => cases h
  | inf negative =>
      cases negative with
      | true => exact hlow ▸ (quantise_within t).1
      | false =>
          cases t with
          | inf negative =>
              cases negative with
              | true => cases h
              | false => exact le_rfl
          | finite w => cases h
          | nan => cases h
  | nan => cases h

theorem samplesOf_encodeWav (samples : List F32) :
    samplesOf (encodeWav r samples) = samples.map (F32.quantise r) := by
  rw [samplesOf, encodeWav, ← length_header (UInt32.ofNat (samples.length * 2)), List.drop_left]
  exact i16s_payload _

theorem length_encodeWav (samples : List F32) :
    (encodeWav r samples).length = 44 + samples.length * 2 := by
  rw [encodeWav, List.length_append, length_header, length_payload, List.length_map, Nat.mul_comm]

/-- An encoded file is a WAV file of 16-bit PCM with one channel whose samples read back as what they
have been quantised to. Its two sizes are right exactly as long as the file fits the 32 bits of the format.
No sample wraps, and a larger sample never reads back as a smaller one. -/
theorem encodeWav_reads_back (r : Rounding) (samples : List F32) :
    IsMonoPcm (encodeWav r samples) ∧
    samplesOf (encodeWav r samples) = samples.map (F32.quantise r) ∧
    (encodeWav r samples).length = 44 + samples.length * 2 ∧
    (field 4 4 (encodeWav r samples) + 8 = (encodeWav r samples).length ∧
      field 4 40 (encodeWav r samples) + 44 = (encodeWav r samples).length ↔
        36 + samples.length * 2 < 2 ^ 32) ∧
    (∀ v ∈ samplesOf (encodeWav r samples), -32767 ≤ v.toInt ∧ v.toInt ≤ 32767) ∧
    ∀ s t : F32, s.Le t → (F32.quantise r s).toInt ≤ (F32.quantise r t).toInt := by
  refine ⟨isMonoPcm_header _ _, samplesOf_encodeWav _, length_encodeWav _, ?_, ?_, fun s t => quantise_mono⟩
  · rw [length_encodeWav, ← sizes_iff (payload (samples.map (F32.quantise r)))]
    rw [encodeWav]
    omega
  · rw [samplesOf_encodeWav]
    intro v hv
    obtain ⟨s, -, rfl⟩ := List.mem_map.mp hv
    exact quantise_within s

example : samplesOf (encodeWav single ([0, 1, -1, 2, 1 / 3].map .finite)) =
    [0, 32767, -32767, 32767, 10922] := by
  decide +kernel

/-! ### The fade -/

/-- How far the sample at `i` of `length` is from the nearer end. -/
def edge (length i : ℕ) : ℕ := min i (length - 1 - i)

/-- A sample after the rounds before `k`. -/
def faded (r : Rounding) (n k length i : ℕ) (s : F32) : F32 :=
  if edge length i < k then s.scale r (gain r (edge length i) n) else s

/-- Each round of the fade reaches two samples, which no other round does. -/
theorem getElem?_rounds {n k : ℕ} (hk : k ≤ samples.length / 2) {i : ℕ} (hi : i < samples.length) :
    ((List.range k).foldl (fadeStep r n (samples.length - 1)) samples)[i]? =
      samples[i]?.map (faded r n k samples.length i) := by
  induction k with
  | zero =>
      have hnone : faded r n 0 samples.length i = id := by
        funext s
        exact if_neg (Nat.not_lt_zero _)
      rw [hnone, Option.map_id]
      rfl
  | succ k ih =>
      have hedge : edge samples.length i = k ↔ k = i ∨ samples.length - 1 - k = i := by
        rw [edge]
        omega
      have hends : k ≠ samples.length - 1 - k := by omega
      rw [List.range_succ, List.foldl_append, List.foldl_cons, List.foldl_nil, fadeStep,
        List.getElem?_modify, List.getElem?_modify, ih (by omega), List.getElem?_eq_getElem hi]
      simp only [Option.map_some, Option.some.injEq, Option.map_eq_map, faded]
      grind

theorem getElem?_fadeEnds (ms : ℕ) {i : ℕ} (hi : i < samples.length) : (fadeEnds r ms samples)[i]? =
    samples[i]?.map (faded r (fadeLength ms samples.length) (fadeLength ms samples.length)
      samples.length i) := by
  have hrounds := getElem?_rounds (r := r) (n := fadeLength ms samples.length)
    (min_le_right (SAMPLE_RATE.toNat * ms / 1000) (samples.length / 2)) hi
  simp only [fadeEnds]
  by_cases hn : fadeLength ms samples.length = 0
  · rw [if_pos hn]
    rw [← fadeLength, hn] at hrounds
    rw [hn]
    exact hrounds
  · rw [if_neg hn]
    exact hrounds

theorem length_rounds (n last k : ℕ) :
    ((List.range k).foldl (fadeStep r n last) samples).length = samples.length := by
  induction k with
  | zero => rfl
  | succ k ih =>
      rw [List.range_succ, List.foldl_append, List.foldl_cons, List.foldl_nil, fadeStep,
        List.length_modify, List.length_modify, ih]

theorem length_fadeEnds (ms : ℕ) : (fadeEnds r ms samples).length = samples.length := by
  simp only [fadeEnds]
  split_ifs
  · rfl
  · exact length_rounds _ _ _

theorem round_zero : r.round 0 = 0 := by exact_mod_cast r.exact 0 (by norm_num)

theorem round_one : r.round 1 = 1 := by exact_mod_cast r.exact 1 (by norm_num)

theorem gain_zero (n : ℕ) : gain r 0 n = 0 := by
  rw [gain, Nat.cast_zero, round_zero, zero_div, round_zero]

theorem gain_within {i n : ℕ} (hi : i ≤ n) : 0 ≤ gain r i n ∧ gain r i n ≤ 1 := by
  have hnonneg : 0 ≤ r.round i := round_zero.ge.trans (r.mono (Nat.cast_nonneg i))
  have hle : r.round i ≤ r.round n := r.mono (Nat.cast_le.mpr hi)
  constructor
  · exact round_zero.ge.trans (r.mono (div_nonneg hnonneg (hnonneg.trans hle)))
  · exact (r.mono (div_le_one_of_le₀ hle (hnonneg.trans hle))).trans round_one.le

/-- A gain makes no representable number larger. -/
theorem abs_round_mul_le {v g : ℚ} (hv : r.round v = v) (hg : 0 ≤ g ∧ g ≤ 1) :
    |r.round (v * g)| ≤ |v| := by
  rcases le_total 0 v with hsign | hsign
  · have hlow : 0 ≤ r.round (v * g) := round_zero.ge.trans (r.mono (mul_nonneg hsign hg.1))
    have hhigh : r.round (v * g) ≤ v := (r.mono (mul_le_of_le_one_right hsign hg.2)).trans hv.le
    rw [abs_of_nonneg hlow, abs_of_nonneg hsign]
    exact hhigh
  · have hhigh : r.round (v * g) ≤ 0 :=
      (r.mono (mul_nonpos_of_nonpos_of_nonneg hsign hg.1)).trans round_zero.le
    have hlow : v ≤ r.round (v * g) := hv.ge.trans (r.mono (by nlinarith [hg.2]))
    rw [abs_of_nonpos hhigh, abs_of_nonpos hsign]
    exact neg_le_neg hlow

theorem fadeEnds_not_louder (ms : ℕ) {i : ℕ} {v : ℚ} (hsample : samples[i]? = some (.finite v))
    (hv : r.round v = v) : ∃ w, (fadeEnds r ms samples)[i]? = some (.finite w) ∧ |w| ≤ |v| := by
  obtain ⟨hi, -⟩ := List.getElem?_eq_some_iff.mp hsample
  rw [getElem?_fadeEnds ms hi, hsample, Option.map_some, faded]
  split_ifs with hnear
  · exact ⟨_, rfl, abs_round_mul_le hv (gain_within hnear.le)⟩
  · exact ⟨v, rfl, le_rfl⟩

theorem fadeEnds_silent {ms : ℕ} (hfade : fadeLength ms samples.length ≠ 0) {i : ℕ} {v : ℚ}
    (hend : edge samples.length i = 0) (hsample : samples[i]? = some (.finite v)) :
    (fadeEnds r ms samples)[i]? = some (.finite 0) := by
  obtain ⟨hi, -⟩ := List.getElem?_eq_some_iff.mp hsample
  rw [getElem?_fadeEnds ms hi, hsample, Option.map_some, faded, hend, if_pos (Nat.pos_of_ne_zero hfade),
    gain_zero, F32.scale, mul_zero, round_zero]

theorem length_warningTick (wave : ℕ → F32) : (warningTick r wave).length = 2205 := by
  rw [warningTick, length_fadeEnds, List.length_map, List.length_range]
  rfl

theorem warningTick_silent (wave : ℕ → ℚ) {i : ℕ} (hi : i < 2205) (hend : edge 2205 i = 0) :
    (samplesOf (encodeWav r (warningTick r fun i => .finite (wave i))))[i]? = some 0 := by
  have hsamples : (warningTick r fun i => .finite (wave i))[i]? = some (.finite 0) := by
    refine fadeEnds_silent (v := wave i) ?_ ?_ ?_
    · rw [List.length_map, List.length_range]
      decide
    · rw [List.length_map, List.length_range]
      exact hend
    · rw [List.getElem?_map, List.getElem?_range (by exact hi)]
      rfl
  have hquiet : F32.quantise r (.finite 0) = 0 := by
    refine Int16.toInt.inj ((quantise_finite 0).trans ?_)
    have hzero : max (-1) (min 0 1) * 32767 = (0 : ℚ) := by norm_num
    rw [level, hzero, round_zero]
    exact_mod_cast truncate_int 0
  rw [samplesOf_encodeWav, List.getElem?_map, hsamples, Option.map_some, hquiet]

/-- A fade reaches each sample once at most, and scales it by how far it is from the nearer end. The ends
are silent, no sample gets louder, and the file of the tick begins and ends with silence. -/
theorem fadeEnds_fades (r : Rounding) (ms : ℕ) (samples : List F32) :
    (fadeEnds r ms samples).length = samples.length ∧
    (∀ i < samples.length, (fadeEnds r ms samples)[i]? = samples[i]?.map
      (faded r (fadeLength ms samples.length) (fadeLength ms samples.length) samples.length i)) ∧
    (∀ (i : ℕ) (v : ℚ), samples[i]? = some (.finite v) → r.round v = v →
      ∃ w, (fadeEnds r ms samples)[i]? = some (.finite w) ∧ |w| ≤ |v|) ∧
    (fadeLength ms samples.length ≠ 0 → ∀ (i : ℕ) (v : ℚ), edge samples.length i = 0 →
      samples[i]? = some (.finite v) → (fadeEnds r ms samples)[i]? = some (.finite 0)) ∧
    ∀ wave : ℕ → ℚ, (encodeWav r (warningTick r fun i => F32.finite (wave i))).length = 4454 ∧
      (samplesOf (encodeWav r (warningTick r fun i => F32.finite (wave i))))[0]? = some 0 ∧
      (samplesOf (encodeWav r (warningTick r fun i => F32.finite (wave i))))[2204]? = some 0 := by
  refine ⟨length_fadeEnds ms, fun i hi => getElem?_fadeEnds ms hi,
    fun i v hsample hv => fadeEnds_not_louder ms hsample hv,
    fun hfade i v hend hsample => fadeEnds_silent hfade hend hsample, fun wave => ⟨?_, ?_, ?_⟩⟩
  · rw [length_encodeWav, length_warningTick]
  · exact warningTick_silent wave (by decide) (by decide)
  · exact warningTick_silent wave (by decide) (by decide)

end Sounds

end AlertU
