import Tstlan.Foundations.Runs
import Tstlan.Devices.Net.Client

/-! # Callers that share one connection

`SocketUnidriverIO._request` writes a line and then reads a line, with nothing that keeps other callers
out in between. Here any number of callers share the connection: a call is a send step and a later
receive step, and the device answers in arrival order. Call numbers, the log of executions and the log of
returned calls are bookkeeping that no step depends on. -/
namespace Tstlan
open Foundations
set_option autoImplicit false

structure NumberedCall where
  number : ℕ
  op : Op
  deriving DecidableEq

/-- A caller that has sent its request and has not read a reply yet. -/
structure Outstanding where
  caller : ℕ
  call : NumberedCall
  deriving DecidableEq

/-- A reply line on its way, with the call whose request it answers. -/
structure ReplyLine where
  call : NumberedCall
  line : List Char
  deriving DecidableEq

/-- The device performed a request in the state `before`. -/
structure Execution (σ : Type) where
  call : NumberedCall
  before : σ
  deriving DecidableEq

/-- A call that has returned: its result and the call that the reply it read was for. -/
structure ReturnedCall where
  caller : ℕ
  call : NumberedCall
  answered : NumberedCall
  result : Except PyError OpResult

structure SharedConnection (σ : Type) where
  device : σ
  requests : List NumberedCall := []
  replies : List ReplyLine := []
  waiting : List Outstanding := []
  next : ℕ := 0
  executed : List (Execution σ) := []
  returned : List ReturnedCall := []

inductive SharedEvent
  | send (caller : ℕ) (op : Op)
  | serve
  | receive (caller : ℕ)
  deriving DecidableEq

namespace SharedConnection
variable {σ : Type}

/-- The line the client writes for a call. -/
def requestLine (op : Op) : List Char := Protocol.encode op.message

/-- What the client returns for a call when it reads this line. -/
def resultOf (op : Op) (line : List Char) : Except PyError OpResult := do
  let reply ← Protocol.decode line
  op.ofReply reply

def send (s : SharedConnection σ) (caller : ℕ) (op : Op) : Option (SharedConnection σ) :=
  -- a caller waits for its reply before it calls again
  if s.waiting.any (fun w => w.caller = caller) then none
  else
    let call : NumberedCall := ⟨s.next, op⟩
    some { s with
      requests := s.requests ++ [call]
      waiting := s.waiting ++ [⟨caller, call⟩]
      next := s.next + 1 }

def receive (s : SharedConnection σ) (caller : ℕ) : Option (SharedConnection σ) :=
  match s.waiting.find? (fun w => w.caller = caller), s.replies with
  | some w, reply :: replies =>
    some { s with
      replies := replies
      waiting := s.waiting.filter (fun x => x.caller ≠ caller)
      returned := s.returned ++ [⟨caller, w.call, reply.call, resultOf w.call.op reply.line⟩] }
  | _, _ => none

/-- A receive step takes the first reply, whoever the caller is. -/
theorem receive_cases {s t : SharedConnection σ} {caller : ℕ} (h : s.receive caller = some t) :
    ∃ w reply replies, w ∈ s.waiting ∧ w.caller = caller ∧ s.replies = reply :: replies ∧
      t = { s with
        replies := replies
        waiting := s.waiting.filter (fun x => x.caller ≠ caller)
        returned := s.returned ++ [⟨caller, w.call, reply.call, resultOf w.call.op reply.line⟩] } := by
  unfold receive at h
  cases hw : s.waiting.find? (fun w => w.caller = caller) with
  | none => rw [hw] at h; cases h
  | some w =>
    cases hr : s.replies with
    | nil => rw [hw, hr] at h; cases h
    | cons reply replies =>
      rw [hw, hr] at h
      cases h
      refine ⟨w, reply, replies, List.mem_of_find?_eq_some hw, ?_, rfl, rfl⟩
      simpa using List.find?_some hw

section
variable [UnidriverIo σ]

def serve (s : SharedConnection σ) : Option (SharedConnection σ) :=
  match s.requests with
  | [] => none
  | call :: requests =>
    match (Handler.handleLine (requestLine call.op)).run s.device with
    | .ok line device =>
      some { s with
        device := device
        requests := requests
        replies := s.replies ++ [⟨call, line⟩]
        executed := s.executed ++ [⟨call, s.device⟩] }
    -- the handler thread has ended: nothing answers any more
    | .error _ _ => none

def step (s : SharedConnection σ) : SharedEvent → Option (SharedConnection σ)
  | .send caller op => s.send caller op
  | .serve => s.serve
  | .receive caller => s.receive caller

/-- The call was performed once in some state, and `result` is what it gave there. -/
def Performed (s : SharedConnection σ) (call : NumberedCall) (result : OpResult) : Prop :=
  ∃ e ∈ s.executed, e.call = call ∧ ∃ t, call.op.call.run e.before = .ok result t

/-- Every call that has returned read the reply to its own request and returned what performing it gave. -/
def OwnReplies (s : SharedConnection σ) : Prop :=
  ∀ ret ∈ s.returned, ret.answered = ret.call ∧
    ∃ result, s.Performed ret.call result ∧ ret.result = .ok result

/-- A caller reads a reply only when no older request is outstanding. -/
def InOrder (s : SharedConnection σ) : SharedEvent → Prop
  | .send _ _ => True
  | .serve => True
  | .receive caller => s.waiting.head?.map Outstanding.caller = some caller

/-! ## In order, the calls in flight are the calls waited for -/

structure Inv (s : SharedConnection σ) : Prop where
  flight : s.waiting.map Outstanding.call = s.replies.map ReplyLine.call ++ s.requests
  distinct : (s.waiting.map Outstanding.caller).Nodup
  numbers : (s.waiting.map (fun w => w.call.number)).Nodup
  fresh : ∀ w ∈ s.waiting, w.call.number < s.next
  answers : ∀ reply ∈ s.replies, ∃ result, s.Performed reply.call result ∧
    reply.line = messageLine result.reply
  own : s.OwnReplies

theorem Performed.mono {s t : SharedConnection σ} {call : NumberedCall} {result : OpResult}
    (h : s.Performed call result) (hsub : s.executed ⊆ t.executed) : t.Performed call result := by
  obtain ⟨e, he, hrest⟩ := h
  exact ⟨e, hsub he, hrest⟩

theorem Performed.result {s : SharedConnection σ} {call : NumberedCall} {result : OpResult}
    (h : s.Performed call result) : resultOf call.op (messageLine result.reply) = .ok result := by
  obtain ⟨e, -, -, t, hrun⟩ := h
  unfold resultOf Protocol.decode
  rw [messageOfLine_messageLine]
  exact ofReply_reply hrun

theorem inv_start (device : σ) : Inv ({ device := device } : SharedConnection σ) :=
  ⟨rfl, List.nodup_nil, List.nodup_nil, by simp, by simp, by simp [OwnReplies]⟩

theorem inv_send {s t : SharedConnection σ} (hs : s.Inv) {caller : ℕ} {op : Op}
    (h : s.send caller op = some t) : t.Inv := by
  unfold send at h
  split at h
  · cases h
  · next hidle =>
    cases h
    have hnew : caller ∉ s.waiting.map Outstanding.caller := by
      intro hmem
      obtain ⟨w, hw, hcaller⟩ := List.mem_map.mp hmem
      exact hidle (List.any_eq_true.mpr ⟨w, hw, decide_eq_true hcaller⟩)
    have hnumber : s.next ∉ s.waiting.map (fun w => w.call.number) := by
      intro hmem
      obtain ⟨w, hw, hn⟩ := List.mem_map.mp hmem
      have := hs.fresh w hw
      omega
    refine ⟨?_, ?_, ?_, ?_, hs.answers, hs.own⟩
    · simp only [List.map_append, List.map_cons, List.map_nil, hs.flight, List.append_assoc]
    · rw [List.map_append, List.map_singleton, ← List.concat_eq_append]
      exact List.Nodup.concat hnew hs.distinct
    · rw [List.map_append, List.map_singleton, ← List.concat_eq_append]
      exact List.Nodup.concat hnumber hs.numbers
    · intro w hw
      rcases List.mem_append.mp hw with hw | hw
      · have := hs.fresh w hw
        show w.call.number < s.next + 1
        omega
      · rw [List.mem_singleton.mp hw]
        exact Nat.lt_succ_self _

/-- The handler answers a request line with the direct call's result. -/
theorem handleLine_requestLine (op : Op) (s : σ) :
    (Handler.handleLine (requestLine op)).run s =
      (op.call >>= fun r => (pure (messageLine r.reply) : EStateM PyError σ (List Char))).run s := by
  unfold Handler.handleLine requestLine DevsimProtocol.decode Protocol.encode
  rw [messageOfLine_messageLine, fromExcept_ok_bind, EStateM.run_bind, apply_message, EStateM.run_bind,
    EStateM.run_bind]
  cases op.call.run s <;> rfl

/-- Serving a request adds the answer to it at the end of the replies. -/
theorem serve_cases {s t : SharedConnection σ} (h : s.serve = some t) :
    ∃ call requests result after, s.requests = call :: requests ∧
      call.op.call.run s.device = .ok result after ∧
      t = { s with
        device := after
        requests := requests
        replies := s.replies ++ [⟨call, messageLine result.reply⟩]
        executed := s.executed ++ [⟨call, s.device⟩] } := by
  unfold serve at h
  cases hr : s.requests with
  | nil => rw [hr] at h; cases h
  | cons call requests =>
    simp only [hr] at h
    rw [handleLine_requestLine] at h
    cases hcall : call.op.call.run s.device with
    | ok result after =>
      rw [run_bind_ok hcall] at h
      cases h
      exact ⟨call, requests, result, after, rfl, hcall, rfl⟩
    | error e after =>
      rw [run_bind_error hcall] at h
      cases h

theorem inv_serve {s t : SharedConnection σ} (hs : s.Inv) (h : s.serve = some t) : t.Inv := by
  obtain ⟨call, requests, result, after, hreq, hrun, rfl⟩ := serve_cases h
  have hsub : s.executed ⊆ s.executed ++ [⟨call, s.device⟩] := List.subset_append_left _ _
  refine ⟨?_, hs.distinct, hs.numbers, hs.fresh, ?_, ?_⟩
  · show s.waiting.map Outstanding.call = (s.replies ++ [_]).map ReplyLine.call ++ requests
    rw [hs.flight, hreq, List.map_append, List.append_assoc]
    rfl
  · intro reply hreply
    rcases List.mem_append.mp hreply with hold | hnew
    · obtain ⟨r, hp, hl⟩ := hs.answers reply hold
      exact ⟨r, hp.mono hsub, hl⟩
    · rw [List.mem_singleton.mp hnew]
      have hlog : (⟨call, s.device⟩ : Execution σ) ∈ s.executed ++ [⟨call, s.device⟩] :=
        List.mem_append_right _ (List.mem_singleton_self _)
      exact ⟨result, ⟨_, hlog, rfl, after, hrun⟩, rfl⟩
  · intro ret hret
    obtain ⟨hans, r, hp, hr⟩ := hs.own ret hret
    exact ⟨hans, r, hp.mono hsub, hr⟩

theorem inv_receive {s t : SharedConnection σ} (hs : s.Inv) {caller : ℕ}
    (h : s.receive caller = some t) (hord : s.InOrder (.receive caller)) : t.Inv := by
  obtain ⟨w, reply, replies, hw, hcaller, hr, rfl⟩ := receive_cases h
  cases hq : s.waiting with
  | nil => rw [hq] at hw; cases hw
  | cons first rest =>
    have hfirst : first.caller = caller := by
      have := hord
      rw [InOrder, hq] at this
      exact Option.some.inj this
    have hdist := hs.distinct
    have hnum := hs.numbers
    have hflight := hs.flight
    rw [hq] at hdist hnum
    rw [hq, hr] at hflight
    obtain ⟨hhead, htail⟩ := List.cons.inj hflight
    obtain ⟨hnot, hdist'⟩ := List.nodup_cons.mp hdist
    have hothers : ∀ x ∈ rest, x.caller ≠ caller := by
      rintro x hx rfl
      exact hnot (hfirst ▸ List.mem_map_of_mem hx)
    have hww : w = first := by
      rw [hq] at hw
      rcases List.mem_cons.mp hw with rfl | hin
      · rfl
      · exact absurd hcaller (hothers w hin)
    have hleft : (first :: rest).filter (fun x => x.caller ≠ caller) = rest := by
      rw [List.filter_cons_of_neg (by simp [hfirst])]
      exact List.filter_eq_self.mpr (fun x hx => by simpa using hothers x hx)
    have hmine : reply.call = w.call := by rw [hww]; exact hhead.symm
    rw [hleft]
    refine ⟨htail, hdist', (List.nodup_cons.mp hnum).2, ?_, ?_, ?_⟩
    · intro x hx
      exact hs.fresh x (by rw [hq]; exact List.mem_cons_of_mem _ hx)
    · intro x hx
      exact hs.answers x (by rw [hr]; exact List.mem_cons_of_mem _ hx)
    · intro ret hret
      rcases List.mem_append.mp hret with hold | hnew
      · exact hs.own ret hold
      · rw [List.mem_singleton.mp hnew]
        obtain ⟨r, hp, hl⟩ := hs.answers reply (by rw [hr]; exact List.mem_cons_self)
        rw [hmine] at hp
        exact ⟨hmine, r, hp, by rw [hl]; exact hp.result⟩

theorem inv_step {s t : SharedConnection σ} (hs : s.Inv) {e : SharedEvent} (h : s.step e = some t)
    (hord : s.InOrder e) : t.Inv := by
  cases e with
  | send caller op => exact inv_send hs h
  | serve => exact inv_serve hs h
  | receive caller => exact inv_receive hs h hord

/-! ## Runs -/

/-- Any interleaving of the steps. -/
def Interleaving : SharedConnection σ → List SharedEvent → SharedConnection σ → Prop :=
  Run (fun s e t => s.step e = some t)

/-- An interleaving in which replies are read in the order of the requests. -/
def InOrderRun : SharedConnection σ → List SharedEvent → SharedConnection σ → Prop :=
  Run (fun s e t => s.step e = some t ∧ s.InOrder e)

/-- **Replies are the callers' own exactly as long as they are read in order.** In a run whose receive
steps are all by the caller with the oldest outstanding request, every returned call has the result of
performing its own request; and a next receive step keeps that if and only if it is in order too. -/
theorem ownReplies_inOrder (device : σ) (events : List SharedEvent) (s : SharedConnection σ)
    (h : InOrderRun { device := device } events s) :
    s.OwnReplies ∧ ∀ caller t, s.step (.receive caller) = some t →
      (t.OwnReplies ↔ s.InOrder (.receive caller)) := by
  have hinv : s.Inv :=
    Run.invariant (P := Inv) (fun _ _ _ hs hstep => inv_step hs hstep.1 hstep.2) h (inv_start device)
  refine ⟨hinv.own, fun caller t ht => ⟨fun hown => ?_, fun hord => (inv_step hinv ht hord).own⟩⟩
  obtain ⟨w, reply, replies, hw, hcaller, hr, rfl⟩ := receive_cases ht
  obtain ⟨hmine, -⟩ := hown _ (List.mem_append_right _ (List.mem_singleton_self _))
  have hmine' : reply.call = w.call := hmine
  cases hq : s.waiting with
  | nil => rw [hq] at hw; cases hw
  | cons first rest =>
    have hflight := hinv.flight
    have hnum := hinv.numbers
    rw [hq, hr] at hflight
    rw [hq] at hnum hw
    obtain ⟨hhead, -⟩ := List.cons.inj hflight
    have hsame : first.call = w.call := hhead.trans hmine'
    rw [InOrder, hq]
    rcases List.mem_cons.mp hw with rfl | hin
    · exact congrArg some hcaller
    · have hnot : first.call.number ∉ rest.map (fun w => w.call.number) := (List.nodup_cons.mp hnum).1
      rw [hsame] at hnot
      exact absurd (List.mem_map.mpr ⟨w, hin, rfl⟩) hnot

end

/-! ## Two callers and one byte each -/

def twoBytes : InMemoryUnidriverIo := ⟨Dict.ofList [(1, [7, 9])]⟩

/-- The second caller reads first and gets the first caller's byte. -/
theorem interleaving_swaps_replies :
    ∃ events s, Interleaving { device := twoBytes } events s ∧ ¬ s.OwnReplies ∧
      ∃ ret ∈ s.returned, ret.call.op = .readBytes 1 1 1 ∧ ret.result = .ok (.bytes [7]) := by
  let events : List SharedEvent :=
    [.send 0 (.readBytes 1 0 1), .send 1 (.readBytes 1 1 1), .serve, .serve, .receive 1]
  refine ⟨events, _, .cons rfl (.cons rfl (.cons rfl (.cons rfl (.cons rfl (.nil _))))), ?_, ?_⟩
  · intro hown
    obtain ⟨hans, -⟩ := hown _ (List.mem_append_right _ (List.mem_singleton_self _))
    cases hans
  · exact ⟨_, List.mem_append_right _ (List.mem_singleton_self _), rfl, rfl⟩

def alternating : List SharedEvent :=
  [.send 0 (.readBytes 1 0 1), .send 1 (.readBytes 1 1 1), .serve, .receive 0, .serve, .receive 1]

theorem alternating_ownReplies :
    ∃ s : SharedConnection InMemoryUnidriverIo,
      InOrderRun { device := twoBytes } alternating s ∧ s.OwnReplies := by
  have hrun : ∃ s, InOrderRun { device := twoBytes } alternating s :=
    ⟨_, .cons ⟨rfl, trivial⟩ (.cons ⟨rfl, trivial⟩ (.cons ⟨rfl, trivial⟩ (.cons ⟨rfl, rfl⟩
      (.cons ⟨rfl, trivial⟩ (.cons ⟨rfl, rfl⟩ (.nil _))))))⟩
  obtain ⟨s, hs⟩ := hrun
  exact ⟨s, hs, (ownReplies_inOrder twoBytes alternating s hs).1⟩

end SharedConnection
end Tstlan
