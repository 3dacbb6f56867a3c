import Dn42Ctl.Schema

/-!
# WsProtocol

`dn42ctl/ws_protocol.py`: the envelope of the sync channel, one JSON object per
text frame.

* `WsProtocol.decode_encode` — a frame that is encoded is decoded to what it was;
* `WsProtocol.envelope_codec_iff` — which texts `decode` answers with an envelope
  or an `EnvelopeError`.
-/

namespace Dn42Ctl

open Text

namespace WsProtocol

def protocolVersion : Int := 1

def maxFrameBytes : Nat := 8 * 1024 * 1024

/-! ## `json`, and the size of a frame -/

/-- What `json.dumps` and `json.loads` raise. -/
inductive JsonFailure where
  | valueError (text : Msg)
  | recursionError
deriving Repr

structure JsonLib where
  /-- `json.dumps(obj, ensure_ascii=False)`. -/
  dumps : JsonObject → Except JsonFailure Str
  loads : Str → Except JsonFailure Json

/-- What is dumped is loaded. -/
def JsonLib.Inverts (lib : JsonLib) (obj : JsonObject) : Prop :=
  ∀ raw, lib.dumps obj = .ok raw → lib.loads raw = .ok (.dict obj)

/-- The bytes of a code point in UTF-8. -/
def utf8Width (c : Nat) : Nat :=
  if c < 0x80 then 1 else if c < 0x800 then 2 else if c < 0x10000 then 3 else 4

/-- `len(s.encode("utf-8"))`; `none` where a lone surrogate cannot be encoded. -/
def utf8Size (s : Str) : Option Nat :=
  if encodable s then some (s.map utf8Width).sum else none

/-! ## `class Envelope` -/

structure Envelope where
  type : Str
  payload : JsonObject
  id : Str
  re : Option Str
  v : Int
  ts : Str
deriving Repr

def optionStr : Option Str → Json
  | none => .null
  | some s => .str s

def Envelope.toDict (e : Envelope) : JsonObject :=
  [(lit "v", .int e.v), (lit "type", .str e.type), (lit "id", .str e.id),
    (lit "re", optionStr e.re), (lit "ts", .str e.ts), (lit "payload", .dict e.payload)]

def encode (lib : JsonLib) (e : Envelope) : Except JsonFailure Str := lib.dumps e.toDict

/-- What comes out of `decode` besides an envelope. -/
inductive DecodeFailure where
  | envelopeError (text : Msg)
  | unicodeEncodeError
  | recursionError
deriving Repr

/-- `raise EnvelopeError(text)`. -/
def envelopeError {α : Type} (text : String) : Except DecodeFailure α :=
  throw (.envelopeError [.text (lit text)])

/-! ### the fields -/

/-- `isinstance(version, int)` of a value that is no `bool`. -/
def versionField (data : JsonObject) : Except DecodeFailure Int :=
  match Json.lookup (lit "v") data with
  | some (.int n) => pure n
  | _ => envelopeError "缺少或非法的 v 字段"

/-- A field with a text that is not empty. -/
def textField (key message : String) (data : JsonObject) : Except DecodeFailure Str :=
  match Json.lookup (lit key) data with
  | some (.str s) => if s.isEmpty then envelopeError message else pure s
  | _ => envelopeError message

/-- A field with a text, which may be missing. -/
def optionalField (key message : String) (data : JsonObject) :
    Except DecodeFailure (Option Str) :=
  match Json.lookup (lit key) data with
  | none | some .null => pure none
  | some (.str s) => pure (some s)
  | some _ => envelopeError message

def payloadField (data : JsonObject) : Except DecodeFailure JsonObject :=
  match Json.lookup (lit "payload") data with
  | none => pure []
  | some (.dict payload) => pure payload
  | some _ => envelopeError "payload 必须是对象"

/-- The checks of `decode` on the object, in order. -/
def envelopeOf (now : Str) (data : JsonObject) : Except DecodeFailure Envelope := do
  let v ← versionField data
  let type ← textField "type" "缺少或非法的 type 字段" data
  let id ← textField "id" "缺少或非法的 id 字段" data
  let re ← optionalField "re" "re 字段必须是字符串或 null" data
  let payload ← payloadField data
  let ts ← optionalField "ts" "ts 字段必须是字符串" data
  pure { type, payload, id, re, v, ts := ts.getD now }

/-- `decode(raw)`; `now` is `_now_iso()`. -/
def decode (lib : JsonLib) (now raw : Str) : Except DecodeFailure Envelope :=
  match utf8Size raw with
  | none => throw .unicodeEncodeError
  | some size =>
      if maxFrameBytes < size then
        throw (.envelopeError [.text (lit "消息超过 "), .text (ofInt maxFrameBytes),
          .text (lit " 字节上限")])
      else
        match lib.loads raw with
        | .error (.valueError text) =>
            throw (.envelopeError (.text (lit "不是合法 JSON: ") :: text))
        | .error .recursionError => throw .recursionError
        | .ok (.dict data) => envelopeOf now data
        | .ok _ => envelopeError "信封顶层必须是对象"

/-! ### envelopes the two sides send -/

section Make

variable (id ts : Str)

/-- `make_error(code, message, re=re)`. -/
def makeError (code : String) (message : Str) (re : Option Str := none) : Envelope where
  type := lit "error"
  payload := [(lit "code", .str (lit code)), (lit "message", .str message)]
  id
  re
  v := protocolVersion
  ts

/-- `make_ack(payload, re=re)`. -/
def makeAck (payload : JsonObject) (re : Str) : Envelope where
  type := lit "ack"
  payload
  id
  re := some re
  v := protocolVersion
  ts

end Make

/-! ## round trip -/

/-- The envelopes of the protocol. -/
structure Envelope.Valid (e : Envelope) : Prop where
  type : e.type ≠ []
  id : e.id ≠ []

/-- A frame within the limit. -/
def WithinLimit (raw : Str) : Prop := ∃ size, utf8Size raw = some size ∧ size ≤ maxFrameBytes

section RoundTrip

variable {lib : JsonLib} {now raw : Str} {e : Envelope}

/-- A nonempty text under the key is the field. -/
theorem textField_of_lookup {data : JsonObject} {key message : String} {s : Str}
    (h : Json.lookup (lit key) data = some (.str s)) (hne : s ≠ []) :
    textField key message data = .ok s := by
  rw [textField, h]
  simp only [List.isEmpty_iff, hne]
  rfl

/-- The checks of `decode` give a valid envelope's dictionary back as the envelope. -/
theorem envelopeOf_toDict (now : Str) (hv : e.Valid) : envelopeOf now e.toDict = .ok e := by
  have hre : optionalField "re" "re 字段必须是字符串或 null" e.toDict = .ok e.re := by
    have hlookup : Json.lookup (lit "re") e.toDict = some (optionStr e.re) := rfl
    rw [optionalField, hlookup]
    cases e.re with
    | none => rfl
    | some s => rfl
  rw [envelopeOf, textField_of_lookup rfl hv.type, textField_of_lookup rfl hv.id, hre]
  rfl

/-- A frame within the limit is decoded to the envelope that was encoded. -/
theorem decode_encode (hv : e.Valid) (hinv : lib.Inverts e.toDict)
    (hraw : encode lib e = .ok raw) (hlimit : WithinLimit raw) : decode lib now raw = .ok e := by
  obtain ⟨size, hsize, hle⟩ := hlimit
  rw [decode, hsize]
  dsimp only
  rw [if_neg (by omega), hinv raw hraw]
  exact envelopeOf_toDict now hv

end RoundTrip

/-! ## what `decode` answers -/

/-- An envelope, or an `EnvelopeError`: what the callers are prepared for. -/
inductive Answers : Except DecodeFailure Envelope → Prop where
  | envelope (e : Envelope) (hv : e.Valid) : Answers (.ok e)
  | envelopeError (text : Msg) : Answers (.error (.envelopeError text))

section Answers

variable {lib : JsonLib} {now raw : Str} {data : JsonObject}

/-- A text field is read, nonempty, or refused as an envelope error. -/
theorem textField_cases (key message : String) (data : JsonObject) :
    (∃ s, textField key message data = .ok s ∧ s ≠ []) ∨
      ∃ text, textField key message data = .error (.envelopeError text) := by
  unfold textField
  split
  · split
    · exact .inr ⟨_, rfl⟩
    · next hne => exact .inl ⟨_, rfl, by simpa using hne⟩
  · exact .inr ⟨_, rfl⟩

/-- So is the version. -/
theorem versionField_cases (data : JsonObject) :
    (∃ n, versionField data = .ok n) ∨
      ∃ text, versionField data = .error (.envelopeError text) := by
  unfold versionField
  split
  · exact .inl ⟨_, rfl⟩
  · exact .inr ⟨_, rfl⟩

/-- So is an optional field. -/
theorem optionalField_cases (key message : String) (data : JsonObject) :
    (∃ o, optionalField key message data = .ok o) ∨
      ∃ text, optionalField key message data = .error (.envelopeError text) := by
  unfold optionalField
  split
  · exact .inl ⟨_, rfl⟩
  · exact .inl ⟨_, rfl⟩
  · exact .inl ⟨_, rfl⟩
  · exact .inr ⟨_, rfl⟩

/-- So is the payload. -/
theorem payloadField_cases (data : JsonObject) :
    (∃ payload, payloadField data = .ok payload) ∨
      ∃ text, payloadField data = .error (.envelopeError text) := by
  unfold payloadField
  split
  · exact .inl ⟨_, rfl⟩
  · exact .inl ⟨_, rfl⟩
  · exact .inr ⟨_, rfl⟩

/-- An object is an envelope, or one of its fields is refused. -/
theorem answers_envelopeOf (now : Str) (data : JsonObject) : Answers (envelopeOf now data) := by
  unfold envelopeOf
  obtain ⟨v, hv⟩ | ⟨text, hv⟩ := versionField_cases data
  · rw [hv]
    obtain ⟨type, htype, htype_ne⟩ | ⟨text, htype⟩ :=
      textField_cases "type" "缺少或非法的 type 字段" data
    · rw [htype]
      obtain ⟨id, hid, hid_ne⟩ | ⟨text, hid⟩ := textField_cases "id" "缺少或非法的 id 字段" data
      · rw [hid]
        obtain ⟨re, hre⟩ | ⟨text, hre⟩ :=
          optionalField_cases "re" "re 字段必须是字符串或 null" data
        · rw [hre]
          obtain ⟨payload, hpayload⟩ | ⟨text, hpayload⟩ := payloadField_cases data
          · rw [hpayload]
            obtain ⟨ts, hts⟩ | ⟨text, hts⟩ := optionalField_cases "ts" "ts 字段必须是字符串" data
            · rw [hts]
              exact .envelope _ ⟨htype_ne, hid_ne⟩
            · rw [hts]
              exact .envelopeError text
          · rw [hpayload]
            exact .envelopeError text
        · rw [hre]
          exact .envelopeError text
      · rw [hid]
        exact .envelopeError text
    · rw [htype]
      exact .envelopeError text
  · rw [hv]
    exact .envelopeError text

/-- `decode` answers unless the text has no encoding, or the parser gives up on
its nesting. -/
theorem answers_decode_iff :
    Answers (decode lib now raw) ↔
      ∃ size, utf8Size raw = some size ∧
        (size ≤ maxFrameBytes → lib.loads raw ≠ .error .recursionError) := by
  unfold decode
  cases hsize : utf8Size raw with
  | none =>
      constructor
      · intro h
        cases h
      · rintro ⟨size, hsome, -⟩
        cases hsome
  | some size =>
      simp only [Option.some.injEq, exists_eq_left']
      by_cases hlimit : maxFrameBytes < size
      · rw [if_pos hlimit]
        exact iff_of_true (.envelopeError _) fun hle => by omega
      · rw [if_neg hlimit]
        have hle : size ≤ maxFrameBytes := by omega
        cases hloads : lib.loads raw with
        | error e =>
            cases e with
            | valueError text => exact iff_of_true (.envelopeError _) fun _ => by simp
            | recursionError =>
                refine iff_of_false (fun h => by cases h) fun h => h hle rfl
        | ok data =>
            refine iff_of_true ?_ fun _ => by simp
            cases data with
            | dict data => exact answers_envelopeOf now data
            | null => exact .envelopeError _
            | bool b => exact .envelopeError _
            | int n => exact .envelopeError _
            | float f => exact .envelopeError _
            | str s => exact .envelopeError _
            | list xs => exact .envelopeError _

end Answers

/-- A frame within the limit is decoded to what was encoded.  Every text is
answered except those without an encoding, and those within the limit whose
nesting the parser refuses. -/
theorem envelope_codec_iff (lib : JsonLib) (now : Str) :
    (∀ e raw, e.Valid → lib.Inverts e.toDict → encode lib e = .ok raw → WithinLimit raw →
      decode lib now raw = .ok e) ∧
    ∀ raw, Answers (decode lib now raw) ↔
      ∃ size, utf8Size raw = some size ∧
        (size ≤ maxFrameBytes → lib.loads raw ≠ .error .recursionError) :=
  ⟨fun _ _ hv hinv hraw hlimit => decode_encode hv hinv hraw hlimit, fun _ => answers_decode_iff⟩

/-! ### a frame, and a hundred thousand brackets -/

def quote (s : Str) : Str := lit "\"" ++ s ++ lit "\""

mutual

/-- `json.dumps` of texts that need no escapes. -/
def jsonText : Json → Str
  | .null => lit "null"
  | .bool true => lit "true"
  | .bool false => lit "false"
  | .int n => ofInt n
  | .float f => f.repr
  | .str s => quote s
  | .list xs => lit "[" ++ itemsText xs ++ lit "]"
  | .dict kvs => lit "\x7b" ++ entriesText kvs ++ lit "\x7d"

def itemsText : List Json → Str
  | [] => []
  | [x] => jsonText x
  | x :: xs => jsonText x ++ lit ", " ++ itemsText xs

def entriesText : List (Str × Json) → Str
  | [] => []
  | [(k, v)] => quote k ++ lit ": " ++ jsonText v
  | (k, v) :: kvs => quote k ++ lit ": " ++ jsonText v ++ lit ", " ++ entriesText kvs

end

/-- A parser that knows one document and the limit of the interpreter. -/
def JsonLib.knowing (doc : JsonObject) : JsonLib where
  dumps obj := .ok (jsonText (.dict obj))
  loads raw :=
    if 1000 < (raw.takeWhile (· == 91)).length then .error .recursionError
    else if raw = jsonText (.dict doc) then .ok (.dict doc)
    else .error (.valueError [.text (lit "Expecting value")])

def samplePing : Envelope where
  type := lit "ping"
  payload := []
  id := lit "0f9d3c5a7b1e4d60"
  re := none
  v := protocolVersion
  ts := lit "2026-07-29T12:00:00+00:00"

theorem envelope_codec_ping :
    decode (.knowing samplePing.toDict) [] (jsonText (.dict samplePing.toDict)) =
      .ok samplePing := by
  have hdepth : ¬ 1000 < ((jsonText (.dict samplePing.toDict)).takeWhile (· == 91)).length := by
    decide +kernel
  refine (envelope_codec_iff _ _).1 samplePing _ ⟨by decide, by decide⟩ ?_ rfl ?_
  · intro raw hraw
    have hsame : jsonText (.dict samplePing.toDict) = raw := Except.ok.inj hraw
    rw [← hsame, JsonLib.knowing]
    dsimp only
    rw [if_neg hdepth, if_pos rfl]
  · exact ⟨_, rfl, by decide +kernel⟩

/-- An ASCII character takes one byte. -/
theorem utf8Size_replicate {n c : Nat} (hc : c < 0x80) :
    utf8Size (List.replicate n c) = some n := by
  have henc : encodable (List.replicate n c) = true := by
    rw [encodable, List.all_eq_true]
    intro d hd
    rw [List.eq_of_mem_replicate hd, isSurrogate, Bool.not_eq_true', Bool.and_eq_false_iff,
      decide_eq_false_iff_not]
    omega
  rw [utf8Size, if_pos henc, List.map_replicate, utf8Width, if_pos hc, List.sum_replicate_nat,
    Nat.mul_one]

theorem loads_replicate {doc : JsonObject} {n : Nat} (hn : 1000 < n) :
    (JsonLib.knowing doc).loads (List.replicate n 91) = .error .recursionError := by
  have hdepth : 1000 < ((List.replicate n 91).takeWhile (· == 91)).length := by
    rw [List.takeWhile_replicate]
    simpa using hn
  rw [JsonLib.knowing]
  dsimp only
  rw [if_pos hdepth]

/-- A frame of brackets alone comes back as a `RecursionError`. -/
theorem envelope_codec_fails :
    ¬ ∀ raw, Answers (decode (.knowing samplePing.toDict) [] raw) := by
  intro h
  obtain ⟨size, hsize, hloads⟩ := answers_decode_iff.mp (h (List.replicate 100000 91))
  rw [utf8Size_replicate (by decide), Option.some.injEq] at hsize
  exact hloads (by rw [← hsize]; decide) (loads_replicate (by decide))

end WsProtocol

end Dn42Ctl
