/-
# LightNet.Game.Text — chat texts and names are cut at a byte, not at a character.

`encode_chat`, `encode_profile` and `apply_profile` keep the first bytes of a text, up to a limit.
What is kept is UTF-8 exactly when no character lies across the limit.
-/
import LightNet.Foundation.Utf8
import LightNet.Game.Payloads
import LightNet.Game.Room

namespace LightNet.Game

open LightNet.Foundation

/-- `result` is what may be relayed of a text. -/
structure Relays (limit : Nat) (original result : Bytes) : Prop where
  utf8 : IsUtf8 result
  isPrefix : result <+: original
  length_le : result.length ≤ limit

/-- The first bytes may be relayed unless a character is cut in two. -/
theorem relays_take_iff {text : Bytes} (h : IsUtf8 text) (limit : Nat) :
    Relays limit text (text.take limit) ↔ CutsBetween limit text := by
  rw [← isUtf8_take_iff h limit]
  constructor
  · exact Relays.utf8
  · intro hutf8
    exact ⟨hutf8, List.take_prefix limit text, List.length_take_le limit text⟩

namespace GameCodec

/-! ## Chat -/

theorem encodeChat_take (chat : GameChatPayload) :
    encodeChat { chat with text := chat.text.take 200 } = encodeChat chat := by
  simp [encodeChat, List.take_take, Nat.min_comm]

theorem encodeProfile_take (profile : GameProfilePayload) :
    encodeProfile { name := profile.name.take 32 } = encodeProfile profile := by
  simp [encodeProfile, List.take_take, Nat.min_comm]

/-- What arrives of a chat text of any length. -/
theorem decodeChat_encodeChat (header : GamePacketHeader) (chat : GameChatPayload) :
    decodeChat ⟨header, encodeChat chat⟩ = some { chat with text := chat.text.take 200 } := by
  have hround : RoundTrips decodeChat (encodeChat { chat with text := chat.text.take 200 })
      { chat with text := chat.text.take 200 } :=
    decodeChat_roundTrips (List.length_take_le 200 chat.text)
  rw [encodeChat_take] at hround
  have hread := (hround header).1 []
  rwa [List.append_nil] at hread

/-- The server decodes a chat text and encodes it again for the others: it is cut once. -/
theorem decodeChat_relayed (header header' : GamePacketHeader) (chat : GameChatPayload) (p : UInt32) :
    ((decodeChat ⟨header, encodeChat chat⟩).bind fun received =>
        decodeChat ⟨header', encodeChat { received with senderId := p }⟩)
      = some { senderId := p, text := chat.text.take 200 } := by
  rw [decodeChat_encodeChat, Option.bind_some, decodeChat_encodeChat, List.take_take, Nat.min_self]

/-- What arrives of a name of any length. -/
theorem decodeProfile_encodeProfile (header : GamePacketHeader) (profile : GameProfilePayload) :
    decodeProfile ⟨header, encodeProfile profile⟩ = some { name := profile.name.take 32 } := by
  have hround : RoundTrips decodeProfile (encodeProfile { name := profile.name.take 32 })
      { name := profile.name.take 32 } :=
    decodeProfile_roundTrips (List.length_take_le 32 profile.name)
  rw [encodeProfile_take] at hround
  have hread := (hround header).1 []
  rwa [List.append_nil] at hread

/-- The text that `decode_chat` recovers from what `encode_chat` has written may be relayed. -/
def ChatRelays (header : GamePacketHeader) (chat : GameChatPayload) : Prop :=
  ∃ recovered, decodeChat ⟨header, encodeChat chat⟩ = some recovered
    ∧ Relays 200 chat.text recovered.text

theorem chatRelays_iff (header : GamePacketHeader) {chat : GameChatPayload} (h : IsUtf8 chat.text) :
    ChatRelays header chat ↔ CutsBetween 200 chat.text := by
  rw [← relays_take_iff h 200]
  constructor
  · rintro ⟨recovered, hdecode, hrelays⟩
    rw [decodeChat_encodeChat] at hdecode
    obtain rfl := Option.some.inj hdecode
    exact hrelays
  · intro hrelays
    exact ⟨_, decodeChat_encodeChat header chat, hrelays⟩

end GameCodec

namespace GameRoom

open GameCodec

variable {F : Type}

/-! ## Names -/

/-- The name under which a player appears on the scoreboard. -/
def nameOf (room : GameRoom F) (p : UInt32) : Option Bytes := (room.findPlayer p).map GamePlayer.name

theorem nameOf_applyProfile (room : GameRoom F) (p : UInt32) (name : Bytes) :
    (room.applyProfile p name).nameOf p
      = (room.nameOf p).map fun old => if name = [] then old else name.take 32 := by
  rw [nameOf, findPlayer, applyProfile, modifyPlayer, UnorderedMap.lookup_modify_self, nameOf,
    findPlayer, Option.map_map, Option.map_map]
  rfl

/-- A name is cut only once, on whichever way it comes. -/
theorem applyProfile_take (room : GameRoom F) (p : UInt32) (name : Bytes) :
    room.applyProfile p (name.take 32) = room.applyProfile p name := by
  have hnil : name.take 32 = [] ↔ name = [] := by
    rw [List.take_eq_nil_iff]
    exact or_iff_right (by decide)
  simp only [applyProfile, hnil, List.take_take, Nat.min_self]

/-- Player `p`, who asked for `name`, has a name that may be relayed; or the name was empty, and the
player has the one from before. -/
def NameRelays (room room' : GameRoom F) (p : UInt32) (name : Bytes) : Prop :=
  ∃ stored, room'.nameOf p = some stored
    ∧ (Relays 32 name stored ∨ (name = [] ∧ room.nameOf p = some stored))

theorem nameRelays_iff {room : GameRoom F} {p : UInt32} {old name : Bytes}
    (hp : room.nameOf p = some old) (h : IsUtf8 name) :
    room.NameRelays (room.applyProfile p name) p name ↔ CutsBetween 32 name := by
  have hstored : (room.applyProfile p name).nameOf p
      = some (if name = [] then old else name.take 32) := by
    rw [nameOf_applyProfile, hp]
    rfl
  by_cases hname : name = []
  · have hcut : CutsBetween 32 name := cutsBetween_of_length_le (by rw [hname]; exact Nat.zero_le 32)
    rw [if_pos hname] at hstored
    exact iff_of_true ⟨old, hstored, .inr ⟨hname, hp⟩⟩ hcut
  · rw [if_neg hname] at hstored
    rw [← relays_take_iff h 32]
    constructor
    · rintro ⟨stored, hget, hrelays | ⟨hempty, -⟩⟩
      · obtain rfl := Option.some.inj (hget.symm.trans hstored)
        exact hrelays
      · exact absurd hempty hname
    · intro hrelays
      exact ⟨_, hstored, .inl hrelays⟩

/-! ## The contract -/

/-- **When relayed text stays UTF-8.** For every chat text and every name in UTF-8: what
`decode_chat` recovers of the text is a prefix of at most 200 bytes in UTF-8 if and only if no
character of the text lies across byte 200; and what `apply_profile` stores of the name, directly or
behind `encode_profile` and `decode_profile`, is a prefix of at most 32 bytes in UTF-8 if and only if
no character of the name lies across byte 32.  An empty name is not stored. -/
theorem text_relayed_iff (header : GamePacketHeader) :
    (∀ chat, IsUtf8 chat.text → (ChatRelays header chat ↔ CutsBetween 200 chat.text))
      ∧ ∀ (room : GameRoom F) (p : UInt32) (old name : Bytes), room.nameOf p = some old → IsUtf8 name →
          (room.NameRelays (room.applyProfile p name) p name ↔ CutsBetween 32 name)
            ∧ ((∃ profile, decodeProfile ⟨header, encodeProfile ⟨name⟩⟩ = some profile
                  ∧ room.NameRelays (room.applyProfile p profile.name) p name)
                ↔ CutsBetween 32 name) := by
  refine ⟨fun chat h => chatRelays_iff header h, fun room p old name hp h => ?_⟩
  have hdirect := nameRelays_iff hp h
  refine ⟨hdirect, ?_⟩
  rw [← hdirect]
  constructor
  · rintro ⟨profile, hdecode, hrelays⟩
    rw [decodeProfile_encodeProfile] at hdecode
    obtain rfl := Option.some.inj hdecode
    rwa [applyProfile_take] at hrelays
  · intro hrelays
    refine ⟨_, decodeProfile_encodeProfile header ⟨name⟩, ?_⟩
    rwa [applyProfile_take]

/-- A room with one player. -/
def host : GameRoom Binary32 := ((GameRoom.new 1 33).addPlayer ⟨127, 0, 0, 1, 7000⟩ 1).2

/-- `n` letters and an `é`. -/
def accented (n : Nat) : Bytes :=
  (List.replicate n 'a' ++ ['é']).flatMap String.utf8EncodeChar

theorem accented_utf8 (n : Nat) : IsUtf8 (accented n) := isUtf8_iff.mpr ⟨_, rfl⟩

/-- A text that ends at the limit, and a longer name that may be cut. -/
theorem text_relayed_iff_sample :
    ChatRelays {} ⟨1, accented 198⟩
      ∧ host.NameRelays (host.applyProfile 1 (accented 40)) 1 (accented 40) := by
  obtain ⟨hchat, hname⟩ := text_relayed_iff (F := Binary32) {}
  exact ⟨(hchat _ (accented_utf8 198)).mpr (by decide),
    (hname host 1 _ _ rfl (accented_utf8 40)).1.mpr (by decide)⟩

/-- The last character lies across the limit. -/
theorem text_cut :
    (IsUtf8 (accented 199) ∧ ¬ ChatRelays {} ⟨1, accented 199⟩)
      ∧ IsUtf8 (accented 31)
      ∧ ¬ host.NameRelays (host.applyProfile 1 (accented 31)) 1 (accented 31) := by
  refine ⟨⟨accented_utf8 199, fun h => ?_⟩, accented_utf8 31, fun h => ?_⟩
  · exact absurd ((chatRelays_iff {} (accented_utf8 199)).mp h) (by decide)
  · exact absurd ((nameRelays_iff rfl (accented_utf8 31)).mp h) (by decide)

end GameRoom

end LightNet.Game
