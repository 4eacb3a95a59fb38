import CodeIntel.Proofs.Connection.Slots
import CodeIntel.Proofs.Message.Sorting
import Mathlib.Data.List.Forall2

/-!
# What becomes of the frames that arrive

Frames of all kinds arrive in any order. Each frame that asks for something is
answered, in the order of arrival and under its own id; each one that only tells
something goes to the handlers of its method; and the calls that wait are left
alone by all frames but responses, whatever ids these frames have.

A frame is taken here by its members: it asks if it has an id that is not null
and a method that is a text, and it tells if it has such a method and no id.
-/

namespace CodeIntel

namespace Incoming

/-! # Frames by their members -/

def method? (frame : Json) : Option String :=
  (frame.get? "method").bind Json.str?

def hasId (frame : Json) : Bool :=
  !(frame.get "id").isNull

def asks (frame : Json) : Bool :=
  hasId frame && (method? frame).isSome

def tells (frame : Json) : Bool :=
  !hasId frame && (method? frame).isSome

variable {frame : Json} {method : String}

theorem isObject_of_method? (h : method? frame = some method) :
    frame.isObject = true := by
  cases hobject : frame.isObject with
  | true =>
      rfl
  | false =>
      rw [method?, Json.get?_of_not_object hobject] at h
      exact nomatch h

theorem classify_of_asks (h : asks frame = true) :
    ∃ method, method? frame = some method ∧
    classify frame = .request (frame.get "id") method (frame.get "params") := by
  obtain ⟨hid, hmethod⟩ := Bool.and_eq_true_iff.mp h
  obtain ⟨method, hmethod⟩ := Option.isSome_iff_exists.mp hmethod
  refine ⟨method, hmethod,
    classify_eq_request (isObject_of_method? hmethod) rfl ?_ hmethod⟩
  intro hnull
  rw [hasId, hnull] at hid
  exact nomatch hid

theorem classify_of_tells (h : tells frame = true) :
    ∃ method, method? frame = some method ∧
    classify frame = .notification method (frame.get "params") := by
  obtain ⟨hid, hmethod⟩ := Bool.and_eq_true_iff.mp h
  obtain ⟨method, hmethod⟩ := Option.isSome_iff_exists.mp hmethod
  have hnull : frame.get "id" = .null :=
    Json.eq_null_of_isNull (by simpa [hasId] using hid)
  exact ⟨method, hmethod,
    classify_eq_notification (isObject_of_method? hmethod) hnull hmethod⟩

theorem classify_of_no_method (h : method? frame = none) :
    (∃ id outcome, classify frame = .response id outcome) ∨
      ∃ reason, classify frame = .invalid reason := by
  rw [method?] at h
  unfold classify
  rw [h]
  split
  · dsimp only
    split
    · next heq =>
        exact nomatch heq
    · exact .inr ⟨_, rfl⟩
    · next heq _ =>
        exact nomatch heq
    · split
      · exact .inr ⟨_, rfl⟩
      · split
        · exact .inl ⟨_, _, rfl⟩
        · exact .inr ⟨_, rfl⟩
  · exact .inr ⟨_, rfl⟩

theorem method?_eq_none (hasks : asks frame = false)
    (htells : tells frame = false) :
    method? frame = none := by
  cases hmethod : method? frame with
  | none =>
      rfl
  | some method =>
      rw [asks, hmethod] at hasks
      rw [tells, hmethod] at htells
      cases hid : hasId frame with
      | true =>
          rw [hid] at hasks
          exact nomatch hasks
      | false =>
          rw [hid] at htells
          exact nomatch htells

end Incoming

/-! # Answers -/

def itemCount (frame : Json) : Nat :=
  ((((frame.get "params").get "items").arr?).getD []).length

/-- What is taken note of and needs no result. -/
def isNoted (method : String) : Bool :=
  ["client/registerCapability", "client/unregisterCapability",
    "window/workDoneProgress/create"].contains method

/-- A message answers a frame: it has the id of the frame, and either a result
or an error. -/
structure IsAnswer (frame : Json) (m : Message) : Prop where
  id : m.toJson.get "id" = frame.get "id"
  either : (m.toJson.get? "result").isSome = !(m.toJson.get? "error").isSome
  configuration : Incoming.method? frame = some "workspace/configuration" →
    m.toJson.get? "result" =
      some (.arr (List.replicate (itemCount frame) .null))
  noted : ∀ method, Incoming.method? frame = some method →
    isNoted method = true → m.toJson.get? "result" = some .null
  unknown : ∀ method, Incoming.method? frame = some method →
    method ≠ "workspace/configuration" → isNoted method = false →
    m.toJson.get? "error" = some (ResponseError.toJson
      ⟨-32601, s!"method not supported by client: {method}", none⟩)

namespace Connection

variable {frame : Json} {method : String}

theorem get?_success (id result : Json) (name : String) :
    (Message.success id result).toJson.get? name =
      Json.lastMember? name [("jsonrpc", .str "2.0"), ("id", id),
        ("result", result)] :=
  Message.get?_toJson (by intro v h; cases h) name

theorem get?_failure (id : Json) (error : ResponseError) (name : String) :
    (Message.failure id error).toJson.get? name =
      Json.lastMember? name [("jsonrpc", .str "2.0"), ("id", id),
        ("error", error.toJson)] :=
  Message.get?_toJson (by intro v h; cases h) name

theorem answer?_of_isNoted (h : isNoted method = true) (params : Json) :
    answer? method params = some .null := by
  simp only [isNoted, List.contains_cons, Bool.or_eq_true, beq_iff_eq,
    List.contains_nil] at h
  rcases h with rfl | rfl | rfl | h
  · rfl
  · rfl
  · rfl
  · exact nomatch h

theorem answer?_of_unknown (hconfiguration : method ≠ "workspace/configuration")
    (h : isNoted method = false) (params : Json) :
    answer? method params = none := by
  unfold answer?
  split
  · exact absurd rfl hconfiguration
  · exact nomatch h
  · exact nomatch h
  · exact nomatch h
  · rfl

theorem answer?_configuration (params : Json) :
    answer? "workspace/configuration" params =
      some (.arr (List.replicate (((params.get "items").arr?).getD []).length
        .null)) := rfl

theorem isAnswer_response (h : Incoming.method? frame = some method) :
    IsAnswer frame (response (frame.get "id") method (frame.get "params")) := by
  have hsame {other : String} (hother : Incoming.method? frame = some other) :
      other = method :=
    Option.some.inj (hother.symm.trans h)
  unfold response
  cases hanswer : answer? method (frame.get "params") with
  | some result =>
      constructor
      · rw [Json.get, get?_success]
        rfl
      · rw [get?_success, get?_success]
        rfl
      · intro hconfiguration
        rw [← hsame hconfiguration, answer?_configuration] at hanswer
        rw [get?_success, itemCount, Option.some.inj hanswer]
        rfl
      · intro other hother hnoted
        rw [← hsame hother, answer?_of_isNoted hnoted] at hanswer
        rw [get?_success, ← Option.some.inj hanswer]
        rfl
      · intro other hother hne hnoted
        rw [← hsame hother, answer?_of_unknown hne hnoted] at hanswer
        cases hanswer
  | none =>
      constructor
      · rw [Json.get, get?_failure]
        rfl
      · rw [get?_failure, get?_failure]
        rfl
      · intro hconfiguration
        rw [← hsame hconfiguration, answer?_configuration] at hanswer
        cases hanswer
      · intro other hother hnoted
        rw [← hsame hother, answer?_of_isNoted hnoted] at hanswer
        cases hanswer
      · intro other hother hne hnoted
        rw [get?_failure, hsame hother]
        rfl

/-! # One frame -/

def answersTo (frame : Json) : List Message :=
  match Incoming.asks frame, Incoming.method? frame with
  | true, some method => [response (frame.get "id") method (frame.get "params")]
  | _, _ => []

/-- The handlers that a frame is passed to, in the order in which they were
registered for its method, each with the parameters of the frame. -/
def runsOf (handlers : List (String × String)) (frame : Json) :
    List (String × Json) :=
  (handlers.filter fun h => Incoming.method? frame = some h.1).map fun h =>
    (h.2, frame.get "params")

/-- What a frame does to an open connection that can be written to. -/
structure Dispatched (c c' : Connection) (frame : Json) : Prop where
  closed : c'.closed = false
  broken : c'.broken = false
  handlers : c'.handlers = c.handlers
  wire : c'.wire = c.wire ++ answersTo frame
  runs :
    c'.runs = c.runs ++ if Incoming.tells frame then runsOf c.handlers
      frame else []
  calls : (∀ id outcome, Incoming.classify frame ≠ .response id outcome) →
    c'.pending = c.pending ∧ c'.replies = c.replies

theorem answersTo_of_asks (hasks : Incoming.asks frame = true)
    (hmethod : Incoming.method? frame = some method) :
    answersTo frame =
      [response (frame.get "id") method (frame.get "params")] := by
  simp only [answersTo, hasks, hmethod]

theorem answersTo_of_not_asks (hasks : Incoming.asks frame = false) :
    answersTo frame = [] := by
  simp only [answersTo, hasks]

theorem runsOf_eq (c : Connection)
    (hmethod : Incoming.method? frame = some method) :
    runsOf c.handlers frame = (c.handlersOf method).map fun name =>
      (name, frame.get "params") := by
  have hsame :
      (fun h : String × String => decide (Incoming.method? frame = some h.1)) =
      fun h => decide (h.1 = method) := by
    funext h
    exact decide_eq_decide.mpr (by rw [hmethod, Option.some.injEq, eq_comm])
  rw [runsOf, hsame, handlersOf, List.map_map]
  rfl

theorem dispatched_dispatch {c : Connection} (hopen : c.closed = false)
    (hworks : c.broken = false) (frame : Json) :
    Dispatched c (c.dispatch frame) frame := by
  cases hasks : Incoming.asks frame with
  | true =>
      obtain ⟨method, hmethod, hclass⟩ := Incoming.classify_of_asks hasks
      have htells : Incoming.tells frame = false := by
        simp [Incoming.tells, (Bool.and_eq_true_iff.mp hasks).1]
      have hdispatch : c.dispatch frame =
          { c with wire := c.wire ++ [response (frame.get "id") method
            (frame.get "params")] } := by
        rw [dispatch, hclass]
        simp [write, checkOpen, put?, hopen, hworks]
      rw [hdispatch]
      refine ⟨hopen, hworks, rfl, ?_, ?_, fun _ => ⟨rfl, rfl⟩⟩
      · rw [answersTo_of_asks hasks hmethod]
      · simp [htells]
  | false =>
      cases htells : Incoming.tells frame with
      | true =>
          obtain ⟨method, hmethod, hclass⟩ := Incoming.classify_of_tells htells
          have hdispatch :
              c.dispatch frame = c.runHandlers method (frame.get "params") := by
            rw [dispatch, hclass]
          rw [hdispatch]
          refine ⟨hopen, hworks, rfl, ?_, ?_, fun _ => ⟨rfl, rfl⟩⟩
          · rw [answersTo_of_not_asks hasks, List.append_nil]
            rfl
          · rw [if_pos htells, runsOf_eq c hmethod]
            rfl
      | false =>
          have hanswers := answersTo_of_not_asks hasks
          rcases Incoming.classify_of_no_method
              (Incoming.method?_eq_none hasks htells) with
            ⟨id, outcome, hclass⟩ | ⟨reason, hclass⟩
          · rw [dispatch_response hclass]
            rcases complete_cases c id outcome with ⟨call, -, -, heq⟩ | ⟨-, heq⟩
            · rw [heq]
              exact ⟨hopen, hworks, rfl, by simp [hanswers], by simp [htells],
                fun hother => absurd hclass (hother id outcome)⟩
            · rw [heq]
              exact ⟨hopen, hworks, rfl, by simp [hanswers], by simp [htells],
                fun _ => ⟨rfl, rfl⟩⟩
          · have hdispatch : c.dispatch frame = c := by
              rw [dispatch, hclass]
            rw [hdispatch]
            exact ⟨hopen, hworks, rfl, by simp [hanswers], by simp [htells],
              fun _ => ⟨rfl, rfl⟩⟩

/-! # All frames -/

def dispatchAll (c : Connection) (frames : List Json) : Connection :=
  frames.foldl dispatch c

theorem dispatchAll_cons (c : Connection) (frame : Json) (rest : List Json) :
    c.dispatchAll (frame :: rest) = (c.dispatch frame).dispatchAll rest := rfl

/-- What some frames do to an open connection that can be written to. -/
theorem dispatchAll_outputs {c : Connection} (hopen : c.closed = false)
    (hworks : c.broken = false) (frames : List Json) :
    (c.dispatchAll frames).closed = false ∧
    (c.dispatchAll frames).broken = false ∧
    (c.dispatchAll frames).wire = c.wire ++ frames.flatMap answersTo ∧
    (c.dispatchAll frames).runs =
      c.runs ++ (frames.filter Incoming.tells).flatMap (runsOf c.handlers) := by
  induction frames generalizing c with
  | nil =>
      exact ⟨hopen, hworks, by simp [dispatchAll], by simp [dispatchAll]⟩
  | cons frame rest ih =>
      have h := dispatched_dispatch hopen hworks frame
      obtain ⟨hopen', hworks', hwire, hruns⟩ := ih h.closed h.broken
      rw [dispatchAll_cons]
      refine ⟨hopen', hworks', ?_, ?_⟩
      · rw [hwire, h.wire, List.append_assoc, List.flatMap_cons]
      · rw [hruns, h.runs, h.handlers, List.append_assoc, List.filter_cons]
        by_cases htells : Incoming.tells frame = true
        · rw [if_pos htells, if_pos htells, List.flatMap_cons]
        · rw [if_neg htells, if_neg htells, List.nil_append]

theorem forall₂_answersTo (frames : List Json) :
    List.Forall₂ IsAnswer (frames.filter Incoming.asks)
      (frames.flatMap answersTo) := by
  induction frames with
  | nil =>
      exact .nil
  | cons frame rest ih =>
      rw [List.filter_cons, List.flatMap_cons]
      by_cases hasks : Incoming.asks frame = true
      · obtain ⟨method, hmethod, -⟩ := Incoming.classify_of_asks hasks
        rw [if_pos hasks, answersTo_of_asks hasks hmethod]
        exact .cons (isAnswer_response hmethod) ih
      · rw [if_neg hasks, answersTo_of_not_asks (Bool.eq_false_iff.mpr hasks)]
        exact ih

/-- An open connection that can be written to answers each frame that asks, in
the order of arrival, and writes nothing else; it passes each frame that tells
to all handlers of its method, in the order of their registration, and runs no
others; and a frame that asks or tells or is of no use changes nothing about
which calls wait and which have a reply. -/
theorem dispatchAll_demultiplexes {c : Connection} (hopen : c.closed = false)
    (hworks : c.broken = false) (frames : List Json) :
    (∃ answers, (c.dispatchAll frames).wire = c.wire ++ answers ∧
      List.Forall₂ IsAnswer (frames.filter Incoming.asks) answers) ∧
    (c.dispatchAll frames).runs =
      c.runs ++ (frames.filter Incoming.tells).flatMap (runsOf c.handlers) ∧
    (∀ before frame after, frames = before ++ frame :: after →
      Incoming.asks frame = true ∨ Incoming.tells frame = true ∨
        (∃ reason, Incoming.classify frame = .invalid reason) →
      (c.dispatchAll (before ++ [frame])).pending =
        (c.dispatchAll before).pending ∧
        (c.dispatchAll (before ++ [frame])).replies =
          (c.dispatchAll before).replies) := by
  obtain ⟨-, -, hwire, hruns⟩ := dispatchAll_outputs hopen hworks frames
  refine ⟨⟨_, hwire, forall₂_answersTo frames⟩, hruns, ?_⟩
  rintro before frame after - hother
  obtain ⟨hopen', hworks', -, -⟩ := dispatchAll_outputs hopen hworks before
  have hlast : c.dispatchAll (before ++ [frame]) =
      (c.dispatchAll before).dispatch frame :=
    List.foldl_append
  rw [hlast]
  apply (dispatched_dispatch hopen' hworks' frame).calls
  intro id outcome hresponse
  rcases hother with hasks | htells | ⟨reason, hinvalid⟩
  · obtain ⟨method, -, hclass⟩ := Incoming.classify_of_asks hasks
    exact nomatch hclass.symm.trans hresponse
  · obtain ⟨method, -, hclass⟩ := Incoming.classify_of_tells htells
    exact nomatch hclass.symm.trans hresponse
  · exact nomatch hinvalid.symm.trans hresponse

/-- A connection on which the first call waits, with three handlers. -/
def firstCallWaits : Connection :=
  { nextCall := 2
    pending := [1]
    handlers := [("a", "first"), ("b", "second"), ("a", "third")] }

/-- A request under the number of the call, a notification, and two frames that
are of no use. -/
def mixedFrames : List Json :=
  [Json.ofMembers [("id", .ofNat 1), ("method", .str "workspace/configuration"),
      ("params", Json.ofMembers [("items", .arr [.null, .null])])],
    Json.ofMembers [("method", .str "a"), ("params", .ofNat 7)],
    .null,
    Json.ofMembers [("id", .ofNat 1), ("error", .ofNat 5)]]

theorem mixedFrames_demultiplexed :
    firstCallWaits.closed = false ∧ firstCallWaits.broken = false ∧
    (∃ answers, (firstCallWaits.dispatchAll mixedFrames).wire = answers ∧
      List.Forall₂ IsAnswer (mixedFrames.take 1) answers) ∧
    (firstCallWaits.dispatchAll mixedFrames).runs =
      [("first", .ofNat 7), ("third", .ofNat 7)] ∧
    (firstCallWaits.dispatchAll (mixedFrames.take 1)).pending = [1] := by
  obtain ⟨hanswers, hruns, hcalls⟩ :=
    dispatchAll_demultiplexes (c := firstCallWaits) rfl rfl mixedFrames
  refine ⟨rfl, rfl, hanswers, hruns, ?_⟩
  exact (hcalls [] _ _ rfl (.inl rfl)).1

end Connection
end CodeIntel
