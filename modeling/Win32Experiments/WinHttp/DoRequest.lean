import Win32Experiments.Foundation.Memory

/-!
# `WinHttpClient::DoRequest`

`DoRequest` makes room for as many bytes as are announced, lets `WinHttpReadData` write to the new
end of the response, and does not look at how many bytes it has written.

* `readResponse_eq`: what the loop adds to the response;
* `doRequest_body_iff`: when this is the body.
-/

namespace Win32Experiments.WinHttp

open Foundation

/-! ## The answers of WinHTTP -/

/-- `HttpError`, by the arguments of its constructor. -/
structure HttpError where
  lastError : ℕ
  msg : String
deriving DecidableEq, Repr

/-- `HttpResponse`. -/
structure HttpResponse where
  statusCode : ℕ
  responseBody : List UInt8
deriving DecidableEq, Repr

/-- A round of the loop: `WinHttpQueryDataAvailable` announces bytes, and `WinHttpReadData` delivers
any number of bytes up to this. -/
structure Round where
  dwSize : ℕ
  delivered : List UInt8
  dwSize_pos : 0 < dwSize
  delivered_le : delivered.length ≤ dwSize

/-- How the rounds end: with an announcement of zero, or a call that fails. -/
inductive Ending
  | nothingLeft
  | queryFails (lastError : ℕ)
  | readFails (lastError : ℕ)
deriving DecidableEq, Repr

/-- What `DoRequest` throws at the end. -/
def Ending.throws : Ending → Option HttpError
  | .nothingLeft => none
  | .queryFails lastError => some ⟨lastError, "WinHttpQueryDataAvailable() failed"⟩
  | .readFails lastError => some ⟨lastError, "WinHttpReadData() failed"⟩

/-- The answers to a request: the error of the `k`th call before the loop if it fails, the status
code, and what the loop is told. -/
structure Answers where
  fails : ℕ → Option ℕ
  statusCode : ℕ
  rounds : List Round
  ending : Ending

/-! ## The request -/

/-- The calls before the loop, by the message that `DoRequest` throws when one fails. -/
def calls : List String :=
  ["Failed to create handle", "Failed to connect", "WinHttpOpenRequest() failed",
    "WinHttpSendRequest() failed", "WinHttpReceiveResponse() failed",
    "WinHttpQueryHeaders() failed"]

/-- The calls from the `k`th one on. -/
def sendRequest (fails : ℕ → Option ℕ) : ℕ → List String → Except HttpError Unit
  | _, [] => .ok ()
  | k, msg :: calls =>
    match fails k with
    | some lastError => .error ⟨lastError, msg⟩
    | none => sendRequest fails (k + 1) calls

/-- The loop of `DoRequest`. -/
def readResponse (ending : Ending) : List UInt8 → List Round → Except HttpError (List UInt8)
  | response, [] =>
    match ending.throws with
    | some error => .error error
    | none => .ok response
  | response, round :: rounds =>
    let offset := response.length
    let response := response ++ List.replicate round.dwSize 0
    readResponse ending (store response offset round.delivered) rounds

/-- `DoRequest`. -/
def doRequest (answers : Answers) : Except HttpError HttpResponse := do
  sendRequest answers.fails 0 calls
  let response ← readResponse answers.ending [] answers.rounds
  return ⟨answers.statusCode, response⟩

/-- The body: the bytes delivered, in order. -/
def Answers.body (answers : Answers) : List UInt8 := answers.rounds.flatMap Round.delivered

/-! ## What the loop adds -/

/-- What a round leaves behind the bytes delivered. -/
def Round.padding (round : Round) : List UInt8 :=
  List.replicate (round.dwSize - round.delivered.length) 0

theorem Round.padding_eq_nil_iff {round : Round} :
    round.padding = [] ↔ round.delivered.length = round.dwSize := by
  have hle := round.delivered_le
  rw [padding, List.replicate_eq_nil_iff]
  omega

/-- One round: the bytes delivered, and the padding. -/
theorem store_round (response : List UInt8) (round : Round) :
    store (response ++ List.replicate round.dwSize 0) response.length round.delivered =
      response ++ (round.delivered ++ round.padding) := by
  rw [store, List.take_left, ← List.drop_drop, List.drop_left, List.drop_replicate,
    List.append_assoc, Round.padding]

/-- The loop adds what each of the rounds does, unless a call fails. -/
theorem readResponse_eq (ending : Ending) (response : List UInt8) (rounds : List Round) :
    readResponse ending response rounds =
      match ending.throws with
      | some error => .error error
      | none => .ok (response ++ rounds.flatMap fun round => round.delivered ++ round.padding) := by
  induction rounds generalizing response with
  | nil => rw [readResponse, List.flatMap_nil, List.append_nil]
  | cons round rounds ih =>
    rw [readResponse]
    show readResponse ending (store _ _ _) rounds = _
    rw [store_round, ih, List.flatMap_cons, List.append_assoc]

theorem length_flatMap_delivered_le (rounds : List Round) :
    (rounds.flatMap Round.delivered).length ≤
      (rounds.flatMap fun round => round.delivered ++ round.padding).length := by
  induction rounds with
  | nil => exact Nat.le_refl _
  | cons round rounds ih =>
    simp only [List.flatMap_cons, List.length_append]
    omega

/-- The padding is in the way of the body, wherever there is some. -/
theorem flatMap_padding_eq_iff (rounds : List Round) :
    rounds.flatMap (fun round => round.delivered ++ round.padding) =
        rounds.flatMap Round.delivered ↔
      ∀ round ∈ rounds, round.padding = [] := by
  constructor
  · intro heq
    have hlen := congrArg List.length heq
    clear heq
    induction rounds with
    | nil => exact fun _ hmem => absurd hmem List.not_mem_nil
    | cons round rounds ih =>
      have hrest := length_flatMap_delivered_le rounds
      simp only [List.flatMap_cons, List.length_append] at hlen
      rw [List.forall_mem_cons]
      exact ⟨List.length_eq_zero_iff.mp (by omega), ih (by omega)⟩
  · intro hnone
    induction rounds with
    | nil => rfl
    | cons round rounds ih =>
      rw [List.forall_mem_cons] at hnone
      rw [List.flatMap_cons, List.flatMap_cons, ih hnone.2, hnone.1, List.append_nil]

/-! ## The body -/

section

variable {answers : Answers}

theorem sendRequest_eq_ok {fails : ℕ → Option ℕ} (hfails : ∀ k, fails k = none) (k : ℕ)
    (calls : List String) : sendRequest fails k calls = .ok () := by
  induction calls generalizing k with
  | nil => rfl
  | cons msg calls ih => rw [sendRequest, hfails, ih]

/-- A failure in the loop is thrown. -/
theorem doRequest_throws {error : HttpError} (hfails : ∀ k, answers.fails k = none)
    (hending : answers.ending.throws = some error) : doRequest answers = .error error := by
  rw [doRequest, sendRequest_eq_ok hfails, readResponse_eq, hending]
  rfl

/-- **`DoRequest`.** The request is sent, and an announcement of zero ends the loop: the response is
the body exactly when every read delivers as many bytes as are announced. -/
theorem doRequest_body_iff (hfails : ∀ k, answers.fails k = none)
    (hending : answers.ending = .nothingLeft) :
    doRequest answers = .ok ⟨answers.statusCode, answers.body⟩ ↔
      ∀ round ∈ answers.rounds, round.delivered.length = round.dwSize := by
  have hresponse : doRequest answers = .ok ⟨answers.statusCode,
      answers.rounds.flatMap fun round => round.delivered ++ round.padding⟩ := by
    rw [doRequest, sendRequest_eq_ok hfails, readResponse_eq, hending]
    rfl
  rw [hresponse, Except.ok.injEq, HttpResponse.mk.injEq, Answers.body, flatMap_padding_eq_iff]
  simp only [true_and, Round.padding_eq_nil_iff]

end

/-- The answers of a server that delivers the bytes of `delivered`, of four announced. -/
def fourAnnounced (delivered : List UInt8) (h : delivered.length ≤ 4) : Answers :=
  ⟨fun _ => none, 200, [⟨4, delivered, Nat.succ_pos 3, h⟩], .nothingLeft⟩

/-- All four bytes, one of them zero. -/
theorem doRequest_four :
    (∀ k, (fourAnnounced [72, 0, 105, 33] (by decide)).fails k = none) ∧
      doRequest (fourAnnounced [72, 0, 105, 33] (by decide)) = .ok ⟨200, [72, 0, 105, 33]⟩ := by
  refine ⟨fun _ => rfl, (doRequest_body_iff (fun _ => rfl) rfl).mpr ?_⟩
  intro round hround
  rw [List.mem_singleton.mp hround]
  rfl

/-- Two of the four bytes: the response has two zeros behind them. -/
theorem doRequest_counterexample :
    (fourAnnounced [72, 105] (by decide)).body = [72, 105] ∧
      doRequest (fourAnnounced [72, 105] (by decide)) = .ok ⟨200, [72, 105, 0, 0]⟩ ∧
      doRequest (fourAnnounced [72, 105] (by decide)) ≠ .ok ⟨200, [72, 105]⟩ := by
  refine ⟨rfl, rfl, ?_⟩
  show Except.ok (HttpResponse.mk 200 [72, 105, 0, 0]) ≠ .ok ⟨200, [72, 105]⟩
  simp

end Win32Experiments.WinHttp
