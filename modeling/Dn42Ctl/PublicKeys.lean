import Dn42Ctl.Validators

/-!
# Public keys

Which texts `validate_pubkey` accepts.  It decodes and counts the bytes: 32 of
them are forty-three characters of the alphabet and a pad.  The last of those
characters carries two bits more than the bytes need, which the decoder drops,
so four texts decode to each key and only one of them is its encoding.
-/

namespace Dn42Ctl

open Text Base64

/-- The encoding of a key of 32 bytes. -/
def Canonical (v : Str) : Prop :=
  ∃ raw : List Nat, raw.length = wgKeyBytes ∧ (∀ b ∈ raw, b < 256) ∧ b64encode raw = v

/-- What `wg` takes for a key: 44 characters, the last of them the pad, and no
bit set in the last character that is in none of the 32 bytes. -/
def WireguardReads (v : Str) : Prop :=
  ∃ tail, OnePad tail v ∧ v.length = 44 ∧ tail % 4 = 0

/-- The same with one of those bits set. -/
def DirtyTail (v : Str) : Prop :=
  ∃ tail, OnePad tail v ∧ v.length = 44 ∧ tail % 4 ≠ 0

/-- `validate_pubkey` accepts the encoding of a key and nothing else, and what
it accepts `wg` accepts. -/
structure KeyExact (s : Str) : Prop where
  canonical : ∀ v, validatePubkey s = .ok v ↔ v = strip s ∧ Canonical v
  wireguard : ∀ v, validatePubkey s = .ok v → WireguardReads v

/-! ## accepted texts -/

/-- A text that decodes to 32 bytes has forty-three characters and a pad. -/
theorem onePad_of_key {v : Str} {raw : List Nat} (hdec : b64decode v = some raw)
    (hlen : raw.length = wgKeyBytes) : ∃ tail, OnePad tail v ∧ v.length = 44 := by
  have hfrom := decodeFrom_of_b64decode hdec
  obtain ⟨tail, htail⟩ := onePad_of_decodeFrom hfrom (by rw [hlen]; decide)
  obtain ⟨out, hout, -, hcount⟩ := htail.decodes
  rw [hfrom, Option.some.injEq] at hout
  rw [← hout, hlen, wgKeyBytes] at hcount
  exact ⟨tail, htail, by omega⟩

theorem key_of_onePad {tail : Nat} {v : Str} (h : OnePad tail v) (hlen : v.length = 44) :
    ∃ raw, b64decode v = some raw ∧ raw.length = wgKeyBytes ∧ ∀ b ∈ raw, b < 256 := by
  obtain ⟨out, hout, hbytes, hcount⟩ := h.decodes
  rw [hlen] at hcount
  refine ⟨out, by rw [h.b64decode_eq, hout], ?_, hbytes⟩
  rw [wgKeyBytes]
  omega

theorem validatePubkey_ok_iff (s v : Str) :
    validatePubkey s = .ok v ↔ v = strip s ∧ ∃ tail, OnePad tail v ∧ v.length = 44 := by
  constructor
  · intro h
    unfold validatePubkey at h
    simp only at h
    split at h
    · cases h
    · split at h
      · cases h
      · rename_i raw hdec
        split at h
        · cases h
        · rename_i hlen
          cases h
          exact ⟨rfl, onePad_of_key hdec (not_not.mp hlen)⟩
  · rintro ⟨rfl, tail, htail, hlen⟩
    obtain ⟨raw, hdec, hraw, -⟩ := key_of_onePad htail hlen
    have hne : (strip s).isEmpty = false := by
      cases hs : strip s with
      | nil => simp [hs] at hlen
      | cons c cs => rfl
    simp only [validatePubkey, hne, hdec, hraw, ne_eq, not_true_eq_false, if_false]
    rfl

/-- Of the texts that decode to a key, the encodings are those with no bit to
spare. -/
theorem canonical_iff {tail : Nat} {v : Str} (h : OnePad tail v) (hlen : v.length = 44) :
    Canonical v ↔ tail % 4 = 0 := by
  constructor
  · rintro ⟨raw, -, hbytes, rfl⟩
    exact (h.encodes_iff (decodeFrom_b64encode hbytes)).mp rfl
  · intro hclear
    obtain ⟨raw, hdec, hraw, hbytes⟩ := key_of_onePad h hlen
    exact ⟨raw, hraw, hbytes, (h.encodes_iff (decodeFrom_of_b64decode hdec)).mpr hclear⟩

theorem Canonical.onePad {v : Str} (h : Canonical v) :
    ∃ tail, OnePad tail v ∧ v.length = 44 := by
  obtain ⟨raw, hlen, hbytes, rfl⟩ := h
  exact onePad_of_key (b64decode_b64encode hbytes) hlen

/-- Two canonical texts of one key are the same text. -/
theorem Canonical.eq_of_decode {v w : Str} (hv : Canonical v) (hw : Canonical w)
    (h : b64decode v = b64decode w) : v = w := by
  obtain ⟨raw, -, hraw, rfl⟩ := hv
  obtain ⟨raw', -, hraw', rfl⟩ := hw
  rw [b64decode_b64encode hraw, b64decode_b64encode hraw', Option.some.injEq] at h
  rw [h]

/-- A text outside `DirtyTail` that is accepted is canonical. -/
theorem canonical_of_accepted {s v : Str} (h : validatePubkey s = .ok v)
    (hclean : ¬ DirtyTail (strip s)) : Canonical v := by
  obtain ⟨rfl, tail, htail, hlen⟩ := (validatePubkey_ok_iff s v).mp h
  rw [canonical_iff htail hlen]
  by_contra hdirty
  exact hclean ⟨tail, htail, hlen, hdirty⟩

/-! ## exactness -/

/-- The validator is exact on a text unless its last character before the pad
has a bit set that the key does not take; and among the other texts no two
accepted ones are the same key. -/
theorem accepted_keys_exact_iff (s : Str) :
    (KeyExact s ↔ ¬ DirtyTail (strip s)) ∧
      ∀ t v w, ¬ DirtyTail (strip s) → ¬ DirtyTail (strip t) →
        validatePubkey s = .ok v → validatePubkey t = .ok w → v ≠ w →
        b64decode v ≠ b64decode w := by
  refine ⟨⟨?_, ?_⟩, ?_⟩
  · rintro hexact ⟨tail, htail, hlen, hdirty⟩
    have hok : validatePubkey s = .ok (strip s) :=
      (validatePubkey_ok_iff s _).mpr ⟨rfl, tail, htail, hlen⟩
    exact hdirty ((canonical_iff htail hlen).mp ((hexact.canonical _).mp hok).2)
  · intro hclean
    constructor
    · intro v
      constructor
      · intro h
        exact ⟨((validatePubkey_ok_iff s v).mp h).1, canonical_of_accepted h hclean⟩
      · rintro ⟨rfl, hcanon⟩
        exact (validatePubkey_ok_iff s _).mpr ⟨rfl, hcanon.onePad⟩
    · intro v h
      obtain ⟨-, tail, htail, hlen⟩ := (validatePubkey_ok_iff s v).mp h
      exact ⟨tail, htail, hlen, (canonical_iff htail hlen).mp (canonical_of_accepted h hclean)⟩
  · intro t v w hs ht hv hw hne hsame
    exact hne ((canonical_of_accepted hv hs).eq_of_decode (canonical_of_accepted hw ht) hsame)

/-- Forty-two `A`, then `A=` or `B=`. -/
def sampleKey (last : Nat) : Str := List.replicate 42 65 ++ [last, 61]

/-- The key of 32 zero bytes is accepted under two texts; `wg` reads one. -/
theorem dirty_key_accepted :
    ¬ KeyExact (sampleKey 66) ∧
      validatePubkey (sampleKey 65) = .ok (sampleKey 65) ∧
      validatePubkey (sampleKey 66) = .ok (sampleKey 66) ∧
      b64decode (sampleKey 65) = b64decode (sampleKey 66) := by
  refine ⟨?_, by rfl, by rfl, by decide⟩
  intro hexact
  have hok : validatePubkey (sampleKey 66) = .ok (sampleKey 66) := by rfl
  obtain ⟨-, raw, hlen, hbytes, henc⟩ := (hexact.canonical _).mp hok
  have hdec := b64decode_b64encode hbytes
  have hzero : b64decode (sampleKey 66) = some (List.replicate 32 0) := by decide
  rw [henc, hzero, Option.some.injEq] at hdec
  rw [← hdec] at henc
  exact absurd henc (by decide)

end Dn42Ctl
