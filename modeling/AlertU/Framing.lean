import Mathlib.Data.List.Infix
import Mathlib.Data.Nat.Notation

/-! Messages on a stream: each is written with a separator after it, and read piece by piece from chunks
that may be cut anywhere. Texts are written as UTF-8, where a line feed stands for nothing but itself. -/

namespace Framing

variable {β : Type}

/-- The stream that carries the messages. -/
def frame (sep : β) (messages : List (List β)) : List β := messages.flatMap (· ++ [sep])

/-- A reader of a stream: the pieces that it has read to their end, and the one that it is in. -/
structure Reader (β : Type) where
  pieces : List (List β)
  rest : List β
  deriving DecidableEq, Repr

namespace Reader

def empty : Reader β := ⟨[], []⟩

variable [DecidableEq β] (sep : β)

def take (r : Reader β) (b : β) : Reader β :=
  if b = sep then ⟨r.pieces ++ [r.rest], []⟩ else ⟨r.pieces, r.rest ++ [b]⟩

/-- A chunk of the stream has come in. -/
def feed (r : Reader β) (chunk : List β) : Reader β := chunk.foldl (take sep) r

/-- What is read of a stream that comes in these chunks. -/
def ofChunks (chunks : List (List β)) : Reader β := chunks.foldl (feed sep) empty

variable {sep} {r : Reader β}

theorem feed_append (before after : List β) :
    r.feed sep (before ++ after) = (r.feed sep before).feed sep after := List.foldl_append

/-- How the stream is cut into chunks does not matter. -/
theorem ofChunks_eq (chunks : List (List β)) : ofChunks sep chunks = empty.feed sep chunks.flatten := by
  unfold ofChunks
  generalize (empty : Reader β) = r
  induction chunks generalizing r with
  | nil => rfl
  | cons chunk chunks ih => rw [List.foldl_cons, ih, List.flatten_cons, feed_append]

theorem feed_of_notMem {bs : List β} (h : sep ∉ bs) : r.feed sep bs = ⟨r.pieces, r.rest ++ bs⟩ := by
  induction bs generalizing r with
  | nil => rw [List.append_nil]; rfl
  | cons b bs ih =>
      obtain ⟨hb, hbs⟩ := not_or.mp (mt List.mem_cons.mpr h)
      show (take sep r b).feed sep bs = _
      rw [take, if_neg (Ne.symm hb), ih hbs, List.append_assoc, List.singleton_append]

theorem feed_frame {messages : List (List β)} (h : ∀ m ∈ messages, sep ∉ m) (pieces : List (List β)) :
    (⟨pieces, []⟩ : Reader β).feed sep (frame sep messages) = ⟨pieces ++ messages, []⟩ := by
  induction messages generalizing pieces with
  | nil => rw [List.append_nil]; rfl
  | cons m messages ih =>
      obtain ⟨hm, hmessages⟩ := List.forall_mem_cons.mp h
      have hone : (⟨pieces, []⟩ : Reader β).feed sep (m ++ [sep]) = ⟨pieces ++ [m], []⟩ := by
        rw [feed_append, feed_of_notMem hm]
        exact if_pos rfl
      rw [frame, List.flatMap_cons, feed_append, hone]
      exact (ih hmessages _).trans (by rw [List.append_assoc, List.singleton_append])

end Reader

/-- What has come in of the messages: the first `k` of them, and `cut` of the next one. -/
def Received (messages : List (List β)) (k : ℕ) (cut : List β) : Prop :=
  cut = [] ∨ ∃ m, messages[k]? = some m ∧ cut <+: m

theorem received_of_begins {sep : β} {messages : List (List β)} {stream : List β}
    (h : stream <+: frame sep messages) : ∃ k cut,
      stream = frame sep (messages.take k) ++ cut ∧ Received messages k cut := by
  induction messages generalizing stream with
  | nil =>
      obtain rfl : stream = [] := List.prefix_nil.mp h
      exact ⟨0, [], rfl, .inl rfl⟩
  | cons m messages ih =>
      rw [frame, List.flatMap_cons] at h
      rcases List.prefix_or_prefix_of_prefix h (List.prefix_append _ _) with hcut | ⟨rest, rfl⟩
      · rcases List.prefix_concat_iff.mp hcut with rfl | hcut
        · exact ⟨1, [], by simp [frame], .inl rfl⟩
        · exact ⟨0, stream, rfl, .inr ⟨m, rfl, hcut⟩⟩
      · obtain ⟨k, cut, rfl, hcut⟩ := ih ((List.prefix_append_right_inj _).mp h)
        exact ⟨k + 1, cut, by simp [frame], hcut⟩

/-- Whatever part of the stream has come in, and in whatever chunks: what is read is the first messages,
and a part of the next one is at hand. -/
theorem ofChunks_of_begins [DecidableEq β] {sep : β} {messages chunks : List (List β)}
    (hsep : ∀ m ∈ messages, sep ∉ m) (h : chunks.flatten <+: frame sep messages) :
    ∃ k cut, chunks.flatten = frame sep (messages.take k) ++ cut ∧ Received messages k cut ∧ sep ∉ cut ∧
      Reader.ofChunks sep chunks = ⟨messages.take k, cut⟩ := by
  obtain ⟨k, cut, hstream, hcut⟩ := received_of_begins h
  have hnone : sep ∉ cut := by
    rcases hcut with rfl | ⟨m, hm, hbegins⟩
    · exact List.not_mem_nil
    · exact fun hmem => hsep m (List.mem_of_getElem? hm) (hbegins.subset hmem)
  refine ⟨k, cut, hstream, hcut, hnone, ?_⟩
  rw [Reader.ofChunks_eq, hstream, Reader.feed_append, Reader.empty,
    Reader.feed_frame fun m hm => hsep m (List.mem_of_mem_take hm), Reader.feed_of_notMem hnone]
  rfl

/-! ### Texts -/

/-- The line feed. -/
def LF : UInt8 := 10

def utf8 (text : List Char) : List UInt8 := text.flatMap String.utf8EncodeChar

/-- The text that the bytes encode, if they encode one. -/
def ofUtf8 (bytes : List UInt8) : Option (List Char) := bytes.toByteArray.utf8Decode?.map (·.toList)

theorem ofUtf8_append (text : List Char) (bytes : List UInt8) :
    ofUtf8 (utf8 text ++ bytes) = (ofUtf8 bytes).map (text ++ ·) := by
  induction text with
  | nil => simp [utf8]
  | cons c text ih =>
      have hcons : (utf8 (c :: text) ++ bytes).toByteArray =
          [c].utf8Encode ++ (utf8 text ++ bytes).toByteArray := by
        simp [utf8, List.utf8Encode, List.toByteArray_append]
      rw [ofUtf8, hcons, ByteArray.utf8Decode?_utf8Encode_singleton_append, Option.map_map]
      rw [ofUtf8] at ih
      rw [show ((fun x : Array Char => x.toList) ∘ fun x => #[c] ++ x) = (c :: ·) ∘ (·.toList) by
        funext x; simp]
      rw [← Option.map_map, ih, Option.map_map]
      rfl

theorem ofUtf8_nil : ofUtf8 [] = some [] := by simp [ofUtf8]

theorem ofUtf8_utf8 (text : List Char) : ofUtf8 (utf8 text) = some text := by
  have happend := ofUtf8_append text []
  rwa [List.append_nil, ofUtf8_nil, Option.map_some, List.append_nil] at happend

theorem utf8_of_ofUtf8 {bytes : List UInt8} {text : List Char} (h : ofUtf8 bytes = some text) :
    bytes = utf8 text := by
  obtain ⟨chars, hchars, rfl⟩ := Option.map_eq_some_iff.mp h
  obtain ⟨m, hm⟩ := ByteArray.isSome_utf8Decode?_iff.mp (Option.isSome_of_eq_some hchars)
  rw [hm, List.utf8Decode?_utf8Encode] at hchars
  cases hchars
  have hdata := congrArg (fun b => b.data.toList) hm
  simpa [List.utf8Encode, utf8] using hdata

/-- A text that begins as another one in bytes begins as that one in characters. -/
theorem begins_of_utf8 {cut text : List Char} (h : utf8 cut <+: utf8 text) : cut <+: text := by
  obtain ⟨rest, hrest⟩ := h
  have hdecoded := ofUtf8_append cut rest
  rw [hrest, ofUtf8_utf8] at hdecoded
  obtain ⟨more, _, rfl⟩ := Option.map_eq_some_iff.mp hdecoded.symm
  exact List.prefix_append _ _

theorem lf_notMem_utf8 {text : List Char} (h : '\n' ∉ text) : LF ∉ utf8 text := by
  intro hmem
  obtain ⟨c, hc, hbyte⟩ := List.mem_flatMap.mp hmem
  have hval : c.val.toNat ≠ 10 := by
    intro hten
    have heq : c = '\n' := Char.ext (UInt32.toNat_inj.mp hten)
    exact h (heq ▸ hc)
  have hnat : ∃ n : ℕ, n < 256 ∧ n ≠ 10 ∧ LF = UInt8.ofNat n := by
    revert hbyte
    fun_cases String.utf8EncodeChar c with
    | case1 v hv =>
        intro hbyte
        exact ⟨v, by omega, hval, List.mem_singleton.mp hbyte⟩
    -- the bytes of a longer encoding are all above the ASCII range
    | case2 v =>
        simp only [List.mem_cons, List.not_mem_nil, or_false]
        rintro (hbyte | hbyte) <;> exact ⟨_, by omega, by omega, hbyte⟩
    | case3 v =>
        simp only [List.mem_cons, List.not_mem_nil, or_false]
        rintro (hbyte | hbyte | hbyte) <;> exact ⟨_, by omega, by omega, hbyte⟩
    | case4 v =>
        simp only [List.mem_cons, List.not_mem_nil, or_false]
        rintro (hbyte | hbyte | hbyte | hbyte) <;> exact ⟨_, by omega, by omega, hbyte⟩
  obtain ⟨n, hn, hten, hbyte'⟩ := hnat
  have htoNat := congrArg UInt8.toNat hbyte'
  rw [UInt8.toNat_ofNat_of_lt' hn] at htoNat
  exact hten htoNat.symm

end Framing
