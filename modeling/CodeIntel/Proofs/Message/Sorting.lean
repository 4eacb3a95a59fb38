import CodeIntel.Message
import CodeIntel.Proofs.Json.Members

/-!
# Sorting the messages that we write

What a message that we write is taken for by whoever sorts it: a request for a
request, a notification for a notification, an answer for an answer, field for
field.
-/

namespace CodeIntel

/-! # Frames by their members -/

namespace Incoming

theorem classify_eq_request {frame id : Json} {method : String}
    (hobject : frame.isObject = true) (hid : frame.get "id" = id)
    (hnull : id ≠ .null)
    (hmethod : (frame.get? "method").bind Json.str? = some method) :
    classify frame = .request id method (frame.get "params") := by
  unfold classify
  rw [if_pos hobject, hid, hmethod]
  cases id with
  | null =>
      exact absurd rfl hnull
  | bool | int | real | str | arr | obj =>
      rfl

theorem classify_eq_notification {frame : Json} {method : String}
    (hobject : frame.isObject = true) (hid : frame.get "id" = .null)
    (hmethod : (frame.get? "method").bind Json.str? = some method) :
    classify frame = .notification method (frame.get "params") := by
  unfold classify
  rw [if_pos hobject, hid, hmethod]

theorem responseId?_ofNat (n : Nat) : responseId? (.ofNat n) = some n := by
  simp [Json.ofNat, responseId?]

theorem classify_eq_response {frame : Json} {n : Nat} {outcome : Outcome}
    (hobject : frame.isObject = true) (hid : frame.get "id" = .ofNat n)
    (hmethod : frame.get? "method" = none)
    (houtcome : outcome? frame = some outcome) :
    classify frame = .response n outcome := by
  unfold classify
  rw [if_pos hobject, hid, hmethod]
  simp only [Json.ofNat, Option.bind_none]
  rw [← Json.ofNat, responseId?_ofNat, houtcome]

theorem outcome?_of_no_error {frame : Json} (h : frame.get "error" = .null) :
    outcome? frame = some (.ok (frame.get "result")) := by
  rw [outcome?, h]

theorem outcome?_of_error {frame : Json} {error : ResponseError}
    (h : ResponseError.decode? (frame.get "error") = some error) :
    outcome? frame = some (.error error) := by
  unfold outcome?
  cases herror : frame.get "error" with
  | null =>
      rw [herror] at h
      exact nomatch h
  | bool | int | real | str | arr | obj =>
      rw [herror] at h
      simp only [h, Option.map_some]

end Incoming

/-! # Messages by their kind -/

namespace Message

def IsEnvelope (m : Message) : Prop :=
  ∀ v, m ≠ .value v

theorem toJson_eq_ofMembers {m : Message} (h : m.IsEnvelope) :
    m.toJson = Json.ofMembers m.members := by
  cases m with
  | value v =>
      exact absurd rfl (h v)
  | request | notification | success | failure =>
      rfl

theorem isObject_toJson {m : Message} (h : m.IsEnvelope) :
    m.toJson.isObject = true := by
  rw [toJson_eq_ofMembers h]
  exact Json.isObject_ofMembers _

theorem get?_toJson {m : Message} (h : m.IsEnvelope) (name : String) :
    m.toJson.get? name = Json.lastMember? name m.members := by
  rw [toJson_eq_ofMembers h, Json.get?_ofMembers]

theorem get_toJson {m : Message} (h : m.IsEnvelope) (name : String) :
    m.toJson.get name = (Json.lastMember? name m.members).getD .null := by
  rw [Json.get, get?_toJson h]

open Incoming

theorem classify_request (id : Nat) (method : String) (params : Json) :
    classify (request id method params).toJson =
      .request (.ofNat id) method params := by
  have henvelope : (request id method params).IsEnvelope := by
    intro v h
    cases h
  have hid : (request id method params).toJson.get "id" = .ofNat id := by
    rw [get_toJson henvelope]
    simp [members, Json.lastMember?, Json.lastMember?_unless_null_of_ne]
  have hmethod :
      ((request id method params).toJson.get? "method").bind Json.str? =
        some method := by
    rw [get?_toJson henvelope]
    simp [members, Json.lastMember?, Json.lastMember?_unless_null_of_ne,
      Json.str?]
  have hparams : (request id method params).toJson.get "params" = params := by
    rw [get_toJson henvelope]
    simp [members, Json.lastMember?, Json.lastMember?_unless_null]
  have hnull : Json.ofNat id ≠ .null := by
    intro h
    cases h
  rw [classify_eq_request (isObject_toJson henvelope) hid hnull hmethod,
    hparams]

theorem classify_notification (method : String) (params : Json) :
    classify (notification method params).toJson =
      .notification method params := by
  have henvelope : (notification method params).IsEnvelope := by
    intro v h
    cases h
  have hid : (notification method params).toJson.get "id" = .null := by
    rw [get_toJson henvelope]
    simp [members, Json.lastMember?, Json.lastMember?_unless_null_of_ne]
  have hmethod :
      ((notification method params).toJson.get? "method").bind Json.str? =
      some method := by
    rw [get?_toJson henvelope]
    simp [members, Json.lastMember?, Json.lastMember?_unless_null_of_ne,
      Json.str?]
  have hparams : (notification method params).toJson.get "params" = params := by
    rw [get_toJson henvelope]
    simp [members, Json.lastMember?, Json.lastMember?_unless_null]
  rw [classify_eq_notification (isObject_toJson henvelope) hid hmethod, hparams]

theorem classify_success (id : Nat) (result : Json) :
    classify (success (.ofNat id) result).toJson =
      .response id (.ok result) := by
  have henvelope : (success (.ofNat id) result).IsEnvelope := by
    intro v h
    cases h
  have hid : (success (.ofNat id) result).toJson.get "id" = .ofNat id := by
    rw [get_toJson henvelope]
    simp [members, Json.lastMember?]
  have hmethod : (success (.ofNat id) result).toJson.get? "method" = none := by
    rw [get?_toJson henvelope]
    simp [members, Json.lastMember?]
  have herror : (success (.ofNat id) result).toJson.get "error" = .null := by
    rw [get_toJson henvelope]
    simp [members, Json.lastMember?]
  have hresult : (success (.ofNat id) result).toJson.get "result" = result := by
    rw [get_toJson henvelope]
    simp [members, Json.lastMember?]
  have houtcome := outcome?_of_no_error herror
  rw [hresult] at houtcome
  exact classify_eq_response (isObject_toJson henvelope) hid hmethod houtcome

theorem classify_failure (id : Nat) {error : ResponseError}
    (h : ResponseError.decode? error.toJson = some error) :
    classify (failure (.ofNat id) error).toJson =
      .response id (.error error) := by
  have henvelope : (failure (.ofNat id) error).IsEnvelope := by
    intro v h
    cases h
  have hid : (failure (.ofNat id) error).toJson.get "id" = .ofNat id := by
    rw [get_toJson henvelope]
    simp [members, Json.lastMember?]
  have hmethod : (failure (.ofNat id) error).toJson.get? "method" = none := by
    rw [get?_toJson henvelope]
    simp [members, Json.lastMember?]
  have herror :
      (failure (.ofNat id) error).toJson.get "error" = error.toJson := by
    rw [get_toJson henvelope]
    simp [members, Json.lastMember?]
  have houtcome :
      outcome? (failure (.ofNat id) error).toJson = some (.error error) := by
    apply outcome?_of_error
    rw [herror, h]
  exact classify_eq_response (isObject_toJson henvelope) hid hmethod houtcome

end Message
end CodeIntel
