import CodeIntel.Proofs.Frame.Series
import CodeIntel.Proofs.Message.Sorting

/-!
# Messages on a stream that breaks off

Whoever reads what we wrote and sorts each frame gets our messages back, field
for field. If the bytes break off somewhere, the messages whose frames are whole
are still got back, and the end tells whether there is a frame that is not.
-/

namespace CodeIntel

/-- A message that we build. -/
inductive BuiltMessage where
  | request (id : UInt64) (method : String) (params : Json)
  | notification (method : String) (params : Json)
  | success (id : UInt64) (result : Json)
  | failure (id : UInt64) (code : Int64) (text : String)

/-- What an attempt to read and sort the next frame yields; nothing at the end
of the stream. -/
abbrev Heard := Except TransportFault (Option Incoming)

def Frame.ReadResult.heard : Frame.ReadResult → Heard
  | .frame value => .ok (some (Incoming.classify value))
  | .fault f => .error f
  | .done => .ok none

namespace BuiltMessage

def message : BuiltMessage → Message
  | .request id method params => .request id.toNat method params
  | .notification method params => .notification method params
  | .success id result => .success (.ofNat id.toNat) result
  | .failure id code text => .failure (.ofNat id.toNat) ⟨code.toInt, text, none⟩

def incoming : BuiltMessage → Incoming
  | .request id method params => .request (.ofNat id.toNat) method params
  | .notification method params => .notification method params
  | .success id result => .response id.toNat (.ok result)
  | .failure id code text =>
    .response id.toNat (.error ⟨code.toInt, text, none⟩)

def body (m : BuiltMessage) : List UInt8 :=
  Utf8.encode m.message.render

/-- The text of the message is read as the value that it was written from. -/
def ReadsBack (m : BuiltMessage) : Prop :=
  Json.parse? m.message.render = some m.message.toJson

def written (ms : List BuiltMessage) : List UInt8 :=
  ms.flatMap fun m => m.message.frame

/-! # One message -/

theorem decode?_error (code : Int64) (text : String) :
    ResponseError.decode? (ResponseError.toJson ⟨code.toInt, text, none⟩) =
      some ⟨code.toInt, text, none⟩ := by
  have hcode : (Json.int code.toInt).i64? = some code.toInt :=
    Json.i64?_int code.le_toInt (Int.le_of_lt_add_one code.toInt_lt)
  simp [ResponseError.decode?, ResponseError.toJson, Json.ofOptions,
    Json.field?, Json.optional?,
    Json.get_ofMembers, Json.get?_ofMembers, Json.lastMember?, hcode, Json.str?,
    Json.orNull?]

theorem classify_message (m : BuiltMessage) :
    Incoming.classify m.message.toJson = m.incoming := by
  cases m with
  | request id method params =>
      exact Message.classify_request id.toNat method params
  | notification method params =>
      exact Message.classify_notification method params
  | success id result =>
      exact Message.classify_success id.toNat result
  | failure id code text =>
      exact Message.classify_failure id.toNat (decode?_error code text)

theorem fits {m : BuiltMessage} (hlength : m.body.length ≤ Frame.maxBytes)
    (hreads : m.ReadsBack) :
    Frame.Fits m.body m.message.toJson := by
  constructor
  · exact hlength
  · rw [Frame.decodeBody, body, Utf8.decode?_encode, Frame.bodyResult,
      Option.bind_some, hreads]

/-! # A series of messages -/

theorem written_eq_series (ms : List BuiltMessage) :
    written ms = Frame.series body ms := rfl

theorem heard_resultsOf (ms : List BuiltMessage) (bytes : List UInt8) :
    (Frame.resultsOf body (fun m => m.message.toJson) ms bytes).map
      Frame.ReadResult.heard = ms.map (fun m => .ok (some m.incoming)) ++
        [if bytes = written ms then .ok none else .error .cutShort] := by
  rw [Frame.resultsOf, List.map_append, List.map_map, List.map_singleton,
    ← written_eq_series]
  congr 1
  · apply List.map_congr_left
    intro m _
    show Except.ok (some (Incoming.classify m.message.toJson)) = _
    rw [classify_message]
  · by_cases h : bytes = written ms
    · rw [if_pos h, if_pos h]
      rfl
    · rw [if_neg h, if_neg h]
      rfl

/-- If what was written breaks off somewhere, the messages that are heard are
the first ones, as many as have their frames wholly inside the bytes. The stream
ends between two frames or cuts one short. -/
theorem whole_messages_heard {ms : List BuiltMessage}
    (hlength : ∀ m ∈ ms, m.body.length ≤ Frame.maxBytes)
    (hreads : ∀ m ∈ ms, m.ReadsBack) {bytes : List UInt8}
    (hbytes : bytes <+: written ms) :
    ∃ k ≤ ms.length,
      (∀ j ≤ ms.length, (written (ms.take j)).length ≤ bytes.length ↔ j ≤ k) ∧
      (Frame.readAll (.ofBytes bytes)).map Frame.ReadResult.heard =
        (ms.take k).map (fun m => .ok (some m.incoming)) ++
          [if ∃ j ≤ ms.length, bytes =
            written (ms.take j) then .ok none else .error .cutShort] := by
  have hfits : ∀ m ∈ ms, Frame.Fits m.body m.message.toJson := fun m hm =>
    fits (hlength m hm) (hreads m hm)
  obtain ⟨k, hinside, hread⟩ :=
    Frame.readAllWith_series hfits hbytes (Nat.lt_succ_self bytes.length)
  refine ⟨k, hinside.le_length, hinside.ends_within_iff, ?_⟩
  have hbetween : (bytes = written (ms.take k)) =
      (∃ j ≤ ms.length, bytes = written (ms.take j)) :=
        propext hinside.eq_series_iff
  rw [Frame.readAll, Frame.Stream.ofBytes, hread, heard_resultsOf]
  simp only [hbetween]

def requestAndRefusal : List BuiltMessage :=
  [.request 1 "shutdown" .null, .failure 18446744073709551615 (-32601) "né"]

theorem readsBack_requestAndRefusal : ∀ m ∈ requestAndRefusal, m.ReadsBack := by
  intro m hm
  rcases List.mem_cons.mp hm with rfl | hm
  · unfold ReadsBack
    decide +kernel
  · rw [List.mem_singleton.mp hm]
    unfold ReadsBack
    decide +kernel

/-- The second frame breaks off inside a character of two bytes. -/
theorem request_heard_before_cut :
    (Frame.readAll (.ofBytes ((written requestAndRefusal).take 167))).map
      Frame.ReadResult.heard =
      [.ok (some (.request (.ofNat 1) "shutdown" .null)),
        .error .cutShort] := by
  obtain ⟨k, hle, hwithin, hheard⟩ :=
    whole_messages_heard (by decide +kernel) readsBack_requestAndRefusal
      (List.take_prefix 167 (written requestAndRefusal))
  have hfirst : 1 ≤ k := (hwithin 1 (by decide)).mp (by decide +kernel)
  have hsecond : ¬2 ≤ k := by
    intro h
    exact absurd ((hwithin 2 (by decide)).mpr h) (by decide +kernel)
  have hk : k = 1 := by
    omega
  rw [hheard, hk, if_neg (by decide +kernel)]
  rfl

end BuiltMessage
end CodeIntel
