import Mathlib.Logic.Function.Basic
import Mathlib.Data.List.Sublists
import Tstlan.Devices.Net.Shared

/-! # Reconnecting after lost connections (`LazySocketUnidriverIO`)

One caller, a device with one handler thread per connection, and failures at any point. A call makes at
most two attempts: an `OSError` in the first drops the connection and tries once more on a new one, an
`OSError` in the second goes to the caller. A request that was sent on a connection stays there and may be
performed at any later time or never. Once a send or a receive has failed on a connection it gives the
client no further line. -/
namespace Tstlan
open Foundations
set_option autoImplicit false

/-- One connection: requests sent and not yet read by its handler, reply lines not yet read by the
client. -/
structure Connection where
  pending : List NumberedCall := []
  replies : List ReplyLine := []
  broken : Bool := false
  /-- The handler thread still reads. -/
  alive : Bool := true
  deriving DecidableEq

/-- Where the caller is in `_call`; `retry` marks the second attempt. -/
inductive Phase
  | idle
  | ready (call : NumberedCall) (retry : Bool)
  | sent (call : NumberedCall) (retry : Bool)
  deriving DecidableEq

structure FinishedCall where
  call : NumberedCall
  result : Except PyError OpResult

structure LazyClient (σ : Type) where
  device : σ
  conns : ℕ → Connection := fun _ => {}
  opened : ℕ := 0
  /-- `self._io`. -/
  current : Option ℕ := none
  phase : Phase := .idle
  next : ℕ := 0
  executed : List (Execution σ) := []
  finished : List FinishedCall := []

namespace LazyClient
variable {σ : Type}

def setConn (s : LazyClient σ) (k : ℕ) (c : Connection) : LazyClient σ :=
  { s with conns := Function.update s.conns k c }

@[simp] theorem conns_setConn_self (s : LazyClient σ) (k : ℕ) (c : Connection) :
    (s.setConn k c).conns k = c := Function.update_self ..

theorem conns_setConn_of_ne (s : LazyClient σ) {k j : ℕ} (c : Connection) (h : j ≠ k) :
    (s.setConn k c).conns j = s.conns j := Function.update_of_ne h ..

/-- An `OSError` in an attempt: reset and try again, or let the caller have it. -/
def osError (s : LazyClient σ) (call : NumberedCall) (retry : Bool) : LazyClient σ :=
  if retry then { s with phase := .idle, finished := s.finished ++ [⟨call, .error .osError⟩] }
  else { s with phase := .ready call true, current := none }

def inFlight : Phase → List NumberedCall
  | .idle => []
  | .ready _ _ => []
  | .sent call _ => [call]

def issued : Phase → List NumberedCall
  | .idle => []
  | .ready call _ => [call]
  | .sent call _ => [call]

@[simp] theorem conns_osError (s : LazyClient σ) (call : NumberedCall) (retry : Bool) :
    (s.osError call retry).conns = s.conns := by
  cases retry <;> rfl

@[simp] theorem next_osError (s : LazyClient σ) (call : NumberedCall) (retry : Bool) :
    (s.osError call retry).next = s.next := by
  cases retry <;> rfl

@[simp] theorem executed_osError (s : LazyClient σ) (call : NumberedCall) (retry : Bool) :
    (s.osError call retry).executed = s.executed := by
  cases retry <;> rfl

@[simp] theorem device_osError (s : LazyClient σ) (call : NumberedCall) (retry : Bool) :
    (s.osError call retry).device = s.device := by
  cases retry <;> rfl

theorem issued_osError {s : LazyClient σ} {call c : NumberedCall} {retry : Bool}
    (h : c ∈ issued (s.osError call retry).phase) : c = call := by
  cases retry with
  | true => cases h
  | false => exact List.mem_singleton.mp h

inductive Event
  | begin (op : Op)
  | connect
  | connectFails
  | send
  | sendFails (delivered : Bool)
  | receive
  | receiveFails
  | handle (k : ℕ)
  deriving DecidableEq

variable [UnidriverIo σ]

inductive Step : LazyClient σ → Event → LazyClient σ → Prop
  | begin {s : LazyClient σ} (op : Op) (hidle : s.phase = .idle) :
      Step s (.begin op) { s with phase := .ready ⟨s.next, op⟩ false, next := s.next + 1 }
  | connect {s : LazyClient σ} {call : NumberedCall} {retry : Bool} (hready : s.phase = .ready call retry)
      (hnone : s.current = none) :
      Step s .connect { s with current := some s.opened, opened := s.opened + 1 }
  | connectFails {s : LazyClient σ} {call : NumberedCall} {retry : Bool}
      (hready : s.phase = .ready call retry) (hnone : s.current = none) :
      Step s .connectFails (s.osError call retry)
  | send {s : LazyClient σ} {call : NumberedCall} {retry : Bool} {k : ℕ}
      (hready : s.phase = .ready call retry) (hcur : s.current = some k) :
      Step s .send { s.setConn k { s.conns k with pending := (s.conns k).pending ++ [call] } with
        phase := .sent call retry }
  | sendFails {s : LazyClient σ} {call : NumberedCall} {retry : Bool} {k : ℕ} (delivered : Bool)
      (hready : s.phase = .ready call retry) (hcur : s.current = some k) :
      Step s (.sendFails delivered)
        ((s.setConn k { s.conns k with
          pending := if delivered then (s.conns k).pending ++ [call] else (s.conns k).pending
          broken := true }).osError call retry)
  | receive {s : LazyClient σ} {call : NumberedCall} {retry : Bool} {k : ℕ} {reply : ReplyLine}
      {replies : List ReplyLine} (hsent : s.phase = .sent call retry) (hcur : s.current = some k)
      (hwhole : (s.conns k).broken = false) (hreply : (s.conns k).replies = reply :: replies) :
      Step s .receive { s.setConn k { s.conns k with replies := replies } with
        phase := .idle
        finished := s.finished ++ [⟨call, SharedConnection.resultOf call.op reply.line⟩] }
  | receiveFails {s : LazyClient σ} {call : NumberedCall} {retry : Bool} {k : ℕ}
      (hsent : s.phase = .sent call retry) (hcur : s.current = some k) :
      Step s .receiveFails ((s.setConn k { s.conns k with broken := true }).osError call retry)
  | handle {s : LazyClient σ} {k : ℕ} {call : NumberedCall} {pending : List NumberedCall}
      {line : List Char} {device : σ} (halive : (s.conns k).alive = true)
      (hpending : (s.conns k).pending = call :: pending)
      (hrun : (Handler.handleLine (SharedConnection.requestLine call.op)).run s.device = .ok line device) :
      Step s (.handle k) { s.setConn k { s.conns k with
          pending := pending
          replies := (s.conns k).replies ++ [⟨call, line⟩] } with
        device := device
        executed := s.executed ++ [⟨call, s.device⟩] }
  | handlerEnds {s : LazyClient σ} {k : ℕ} {call : NumberedCall} {pending : List NumberedCall}
      {e : PyError} {device : σ} (halive : (s.conns k).alive = true)
      (hpending : (s.conns k).pending = call :: pending)
      (hrun : (Handler.handleLine (SharedConnection.requestLine call.op)).run s.device = .error e device) :
      Step s (.handle k) { s.setConn k { s.conns k with pending := pending, alive := false } with
        device := device
        executed := s.executed ++ [⟨call, s.device⟩] }

def start (device : σ) : LazyClient σ := { device := device }

/-- The call was performed once in some state, and `result` is what it gave there. -/
def Performed (s : LazyClient σ) (call : NumberedCall) (result : OpResult) : Prop :=
  ∃ e ∈ s.executed, e.call = call ∧ ∃ t, call.op.call.run e.before = .ok result t

/-- Every call ended in an `OSError` or returned what one execution of its own request gave. -/
def SingleExecution (s : LazyClient σ) : Prop :=
  ∀ f ∈ s.finished, f.result = .error .osError ∨
    ∃ result, s.Performed f.call result ∧ f.result = .ok result

/-! ## The invariant of a run -/

/-- On a whole current connection nothing is in flight but the call that waits; every reply line is the
answer of one execution; calls are numbered in the order they were issued. -/
structure Inv (s : LazyClient σ) : Prop where
  unopened : ∀ k, s.opened ≤ k → s.conns k = {}
  current_lt : ∀ k, s.current = some k → k < s.opened
  flight : ∀ k, s.current = some k → (s.conns k).broken = false →
    ((s.conns k).replies.map ReplyLine.call ++ (s.conns k).pending).Sublist (inFlight s.phase)
  answers : ∀ k, ∀ reply ∈ (s.conns k).replies, ∃ result, s.Performed reply.call result ∧
    reply.line = messageLine result.reply
  pending_lt : ∀ k, ∀ c ∈ (s.conns k).pending, c.number < s.next
  issued_lt : ∀ c ∈ issued s.phase, c.number < s.next
  executed_lt : ∀ e ∈ s.executed, e.call.number < s.next
  single : s.SingleExecution

theorem Performed.mono {s t : LazyClient σ} {call : NumberedCall} {result : OpResult}
    (h : s.Performed call result) (hsub : s.executed ⊆ t.executed) : t.Performed call result := by
  obtain ⟨e, he, hrest⟩ := h
  exact ⟨e, hsub he, hrest⟩

theorem Performed.result {s : LazyClient σ} {call : NumberedCall} {result : OpResult}
    (h : s.Performed call result) :
    SharedConnection.resultOf call.op (messageLine result.reply) = .ok result := by
  obtain ⟨e, -, -, t, hrun⟩ := h
  unfold SharedConnection.resultOf Protocol.decode
  rw [messageOfLine_messageLine]
  exact ofReply_reply hrun

theorem inv_start (device : σ) : Inv (start device) where
  unopened := fun _ _ => rfl
  current_lt := fun _ h => by cases h
  flight := fun _ h => by cases h
  answers := fun _ _ h => by cases h
  pending_lt := fun _ _ h => by cases h
  issued_lt := fun _ h => by cases h
  executed_lt := fun _ h => by cases h
  single := fun _ h => by cases h

section
variable {s : LazyClient σ} (hs : Inv s)

include hs

theorem opened_of_pending {k : ℕ} {c : NumberedCall} (hc : c ∈ (s.conns k).pending) : k < s.opened := by
  by_contra hk
  rw [hs.unopened k (by omega)] at hc
  cases hc

/-- One connection may change if it keeps its own part of the invariant. -/
theorem inv_setConn {k : ℕ} {c : Connection} (hk : k < s.opened)
    (hflight : s.current = some k → c.broken = false →
      (c.replies.map ReplyLine.call ++ c.pending).Sublist (inFlight s.phase))
    (hanswers : ∀ reply ∈ c.replies, ∃ result, s.Performed reply.call result ∧
      reply.line = messageLine result.reply)
    (hpending : ∀ x ∈ c.pending, x.number < s.next) : Inv (s.setConn k c) := by
  have hcases (P : Connection → Prop) (j : ℕ) (hself : P c) (hother : j ≠ k → P (s.conns j)) :
      P ((s.setConn k c).conns j) := by
    by_cases hj : j = k
    · rw [hj, conns_setConn_self]
      exact hself
    · rw [conns_setConn_of_ne s c hj]
      exact hother hj
  refine ⟨?_, hs.current_lt, ?_, ?_, ?_, hs.issued_lt, hs.executed_lt, hs.single⟩
  · intro j hj
    have hopen : s.opened ≤ j := hj
    rw [conns_setConn_of_ne s c (by omega)]
    exact hs.unopened j hopen
  · intro j hj hwhole
    have hcur : s.current = some j := hj
    by_cases hjk : j = k
    · subst hjk
      rw [conns_setConn_self] at hwhole ⊢
      exact hflight hcur hwhole
    · rw [conns_setConn_of_ne s c hjk] at hwhole ⊢
      exact hs.flight j hcur hwhole
  · intro j
    exact hcases (fun c => ∀ reply ∈ c.replies, ∃ result, s.Performed reply.call result ∧
      reply.line = messageLine result.reply) j hanswers (fun _ => hs.answers j)
  · intro j
    exact hcases (fun c => ∀ x ∈ c.pending, x.number < s.next) j hpending (fun _ => hs.pending_lt j)

theorem inv_executed {e : Execution σ} (he : e.call.number < s.next) (device : σ) :
    Inv { s with device := device, executed := s.executed ++ [e] } := by
  have hsub : s.executed ⊆ s.executed ++ [e] := List.subset_append_left _ _
  refine ⟨hs.unopened, hs.current_lt, hs.flight, ?_, hs.pending_lt, hs.issued_lt, ?_, ?_⟩
  · intro k reply hreply
    obtain ⟨result, hp, hl⟩ := hs.answers k reply hreply
    exact ⟨result, hp.mono hsub, hl⟩
  · intro x hx
    rcases List.mem_append.mp hx with hx | hx
    · exact hs.executed_lt x hx
    · rw [List.mem_singleton.mp hx]
      exact he
  · intro f hf
    rcases hs.single f hf with h | ⟨result, hp, hr⟩
    · exact .inl h
    · exact .inr ⟨result, hp.mono hsub, hr⟩

/-- A call may finish when nothing is left on a whole current connection. -/
theorem inv_finish {f : FinishedCall}
    (hclear : ∀ k, s.current = some k → (s.conns k).broken = false →
      (s.conns k).replies = [] ∧ (s.conns k).pending = [])
    (hf : f.result = .error .osError ∨ ∃ result, s.Performed f.call result ∧ f.result = .ok result) :
    Inv { s with phase := .idle, finished := s.finished ++ [f] } := by
  refine ⟨hs.unopened, hs.current_lt, ?_, hs.answers, hs.pending_lt, by simp [issued], hs.executed_lt, ?_⟩
  · intro k hk hwhole
    obtain ⟨hr, hp⟩ := hclear k hk hwhole
    show ((s.conns k).replies.map ReplyLine.call ++ (s.conns k).pending).Sublist []
    rw [hr, hp]
    exact List.Sublist.slnil
  · intro x hx
    rcases List.mem_append.mp hx with hx | hx
    · exact hs.single x hx
    · rw [List.mem_singleton.mp hx]
      exact hf

/-- An exception is raised when the current connection, if there is one, is broken. -/
theorem inv_osError {call : NumberedCall} (hcall : call.number < s.next) (retry : Bool)
    (hbroken : ∀ k, s.current = some k → (s.conns k).broken = true) : Inv (s.osError call retry) := by
  cases retry with
  | true =>
    rw [osError, if_pos rfl]
    refine inv_finish hs (fun k hk hwhole => ?_) (.inl rfl)
    rw [hbroken k hk] at hwhole
    cases hwhole
  | false =>
    rw [osError, if_neg Bool.false_ne_true]
    refine ⟨hs.unopened, ?_, ?_, hs.answers, hs.pending_lt, ?_, hs.executed_lt, hs.single⟩
    · intro k hk
      cases hk
    · intro k hk
      cases hk
    · intro c hc
      rw [List.mem_singleton.mp hc]
      exact hcall

/-- On a whole current connection the one reply is the answer to the waiting call. -/
theorem reply_of_sent {call : NumberedCall} {retry : Bool} {k : ℕ} {reply : ReplyLine}
    {replies : List ReplyLine} (hsent : s.phase = .sent call retry) (hcur : s.current = some k)
    (hwhole : (s.conns k).broken = false) (hreply : (s.conns k).replies = reply :: replies) :
    reply.call = call ∧ replies = [] ∧ (s.conns k).pending = [] := by
  have hflight := hs.flight k hcur hwhole
  rw [hreply, hsent, inFlight, List.map_cons, List.cons_append] at hflight
  have hlen := hflight.length_le
  simp only [List.length_cons, List.length_append, List.length_map, List.length_nil] at hlen
  have hr : replies = [] := List.length_eq_zero_iff.mp (by omega)
  have hp : (s.conns k).pending = [] := List.length_eq_zero_iff.mp (by omega)
  rw [hr, hp] at hflight
  have heq := hflight.eq_of_length rfl
  exact ⟨(List.cons.inj heq).1, hr, hp⟩

end

/-! ## Each step keeps it -/

section
variable {s : LazyClient σ} (hs : s.Inv)

include hs

theorem inv_begin (op : Op) (hidle : s.phase = .idle) :
    Inv { s with phase := .ready ⟨s.next, op⟩ false, next := s.next + 1 } := by
  refine ⟨hs.unopened, hs.current_lt, ?_, hs.answers, ?_, ?_, ?_, hs.single⟩
  · intro k hk hwhole
    have hflight := hs.flight k hk hwhole
    rwa [hidle] at hflight
  · intro k c hc
    exact Nat.lt_succ_of_lt (hs.pending_lt k c hc)
  · intro c hc
    rw [List.mem_singleton.mp hc]
    exact Nat.lt_succ_self _
  · intro x hx
    exact Nat.lt_succ_of_lt (hs.executed_lt x hx)

theorem inv_connect : Inv { s with current := some s.opened, opened := s.opened + 1 } := by
  refine ⟨?_, ?_, ?_, hs.answers, hs.pending_lt, hs.issued_lt, hs.executed_lt, hs.single⟩
  · intro k hk
    exact hs.unopened k (by change s.opened + 1 ≤ k at hk; omega)
  · intro k hk
    rw [← Option.some.inj hk]
    exact Nat.lt_succ_self _
  · intro k hk _
    rw [← Option.some.inj hk, hs.unopened s.opened le_rfl]
    exact List.nil_sublist _

/-- The numbers of the requests on a connection, after the current call may have been added. -/
theorem pending_append {call : NumberedCall} (hcall : call.number < s.next) (k : ℕ) :
    ∀ x ∈ (s.conns k).pending ++ [call], x.number < s.next := by
  intro x hx
  rcases List.mem_append.mp hx with hx | hx
  · exact hs.pending_lt k x hx
  · rw [List.mem_singleton.mp hx]
    exact hcall

theorem inv_send {call : NumberedCall} {retry : Bool} {k : ℕ} (hcall : call.number < s.next)
    (hready : s.phase = .ready call retry) (hcur : s.current = some k) :
    Inv { s.setConn k { s.conns k with pending := (s.conns k).pending ++ [call] } with phase := .sent call retry } := by
  have hsent : Inv { s with phase := .sent call retry } := by
    refine ⟨hs.unopened, hs.current_lt, ?_, hs.answers, hs.pending_lt, ?_, hs.executed_lt, hs.single⟩
    · intro j hj hwhole
      have hflight := hs.flight j hj hwhole
      rw [hready] at hflight
      exact hflight.trans (List.nil_sublist _)
    · intro c hc
      rw [List.mem_singleton.mp hc]
      exact hcall
  refine inv_setConn hsent (hs.current_lt k hcur) ?_ (hs.answers k) (pending_append hs hcall k)
  intro _ hwhole
  have hflight := hs.flight k hcur hwhole
  rw [hready, inFlight, List.sublist_nil, List.append_eq_nil_iff] at hflight
  show ((s.conns k).replies.map ReplyLine.call ++ ((s.conns k).pending ++ [call])).Sublist [call]
  rw [hflight.1, hflight.2]
  exact List.Sublist.refl _

/-- A send or a receive fails on the current connection, which may have got the request. -/
theorem inv_fails {call : NumberedCall} {k : ℕ} (hcall : call.number < s.next) (hcur : s.current = some k)
    (retry : Bool) {c : Connection} (hbroken : c.broken = true) (hreplies : c.replies = (s.conns k).replies)
    (hpending : ∀ x ∈ c.pending, x.number < s.next) : Inv ((s.setConn k c).osError call retry) := by
  have hset : Inv (s.setConn k c) := by
    refine inv_setConn hs (hs.current_lt k hcur) ?_ (by rw [hreplies]; exact hs.answers k) hpending
    intro _ hwhole
    rw [hbroken] at hwhole
    cases hwhole
  refine inv_osError hset hcall retry ?_
  intro j hj
  have hjk : k = j := Option.some.inj (hcur.symm.trans hj)
  rw [← hjk, conns_setConn_self]
  exact hbroken

theorem inv_receive {call : NumberedCall} {retry : Bool} {k : ℕ} {reply : ReplyLine} {replies : List ReplyLine}
    (hsent : s.phase = .sent call retry) (hcur : s.current = some k) (hwhole : (s.conns k).broken = false)
    (hreply : (s.conns k).replies = reply :: replies) :
    Inv { s.setConn k { s.conns k with replies := replies } with
      phase := .idle
      finished := s.finished ++ [⟨call, SharedConnection.resultOf call.op reply.line⟩] } := by
  obtain ⟨hcall, hnil, hpend⟩ := reply_of_sent hs hsent hcur hwhole hreply
  obtain ⟨result, hp, hl⟩ := hs.answers k reply (by rw [hreply]; exact List.mem_cons_self)
  have hset : Inv (s.setConn k { s.conns k with replies := replies }) := by
    refine inv_setConn hs (hs.current_lt k hcur) ?_ ?_ (hs.pending_lt k)
    · intro _ _
      show (replies.map ReplyLine.call ++ (s.conns k).pending).Sublist _
      rw [hnil, hpend]
      exact List.nil_sublist _
    · intro x hx
      exact hs.answers k x (by rw [hreply]; exact List.mem_cons_of_mem _ hx)
  refine inv_finish hset ?_ (.inr ⟨result, ?_, ?_⟩)
  · intro j hj _
    have hjk : k = j := Option.some.inj (hcur.symm.trans hj)
    rw [← hjk, conns_setConn_self]
    exact ⟨hnil, hpend⟩
  · rw [hcall] at hp
    exact hp
  · rw [hcall] at hp
    rw [hl]
    exact hp.result

theorem inv_handle {k : ℕ} {call : NumberedCall} {pending : List NumberedCall} {line : List Char} {device : σ}
    (hpending : (s.conns k).pending = call :: pending)
    (hrun : (Handler.handleLine (SharedConnection.requestLine call.op)).run s.device = .ok line device) :
    Inv { s.setConn k { s.conns k with
        pending := pending
        replies := (s.conns k).replies ++ [⟨call, line⟩] } with
      device := device
      executed := s.executed ++ [⟨call, s.device⟩] } := by
  have hmem : call ∈ (s.conns k).pending := by
    rw [hpending]
    exact List.mem_cons_self
  have hexec := inv_executed hs (e := ⟨call, s.device⟩) (hs.pending_lt k call hmem) device
  refine inv_setConn hexec (opened_of_pending hs hmem) ?_ ?_ ?_
  · intro hcur hwhole
    have hflight := hs.flight k hcur hwhole
    show (((s.conns k).replies ++ [_]).map ReplyLine.call ++ pending).Sublist (inFlight s.phase)
    rw [hpending] at hflight
    rwa [List.map_append, List.append_assoc]
  · intro x hx
    rcases List.mem_append.mp hx with hx | hx
    · exact hexec.answers k x hx
    · rw [List.mem_singleton.mp hx]
      rw [SharedConnection.handleLine_requestLine] at hrun
      obtain ⟨result, after, hcall, hret⟩ := bind_eq_ok hrun
      cases hret
      have hlog : (⟨call, s.device⟩ : Execution σ) ∈ s.executed ++ [⟨call, s.device⟩] :=
        List.mem_append_right _ (List.mem_singleton_self _)
      exact ⟨result, ⟨_, hlog, rfl, device, hcall⟩, rfl⟩
  · intro x hx
    exact hs.pending_lt k x (by rw [hpending]; exact List.mem_cons_of_mem _ hx)

theorem inv_handlerEnds {k : ℕ} {call : NumberedCall} {pending : List NumberedCall} (device : σ)
    (hpending : (s.conns k).pending = call :: pending) :
    Inv { s.setConn k { s.conns k with pending := pending, alive := false } with
      device := device
      executed := s.executed ++ [⟨call, s.device⟩] } := by
  have hmem : call ∈ (s.conns k).pending := by
    rw [hpending]
    exact List.mem_cons_self
  have hexec := inv_executed hs (e := ⟨call, s.device⟩) (hs.pending_lt k call hmem) device
  refine inv_setConn hexec (opened_of_pending hs hmem) ?_ (hexec.answers k) ?_
  · intro hcur hwhole
    have hflight := hs.flight k hcur hwhole
    rw [hpending] at hflight
    exact (List.Sublist.append_left (List.sublist_cons_self _ _) _).trans hflight
  · intro x hx
    exact hs.pending_lt k x (by rw [hpending]; exact List.mem_cons_of_mem _ hx)

end

theorem inv_step {s t : LazyClient σ} {e : Event} (hs : s.Inv) (h : Step s e t) : t.Inv := by
  have hissued {call : NumberedCall} (hcall : call ∈ issued s.phase) : call.number < s.next := hs.issued_lt call hcall
  cases h with
  | begin op hidle => exact inv_begin hs op hidle
  | connect hready hnone => exact inv_connect hs
  | connectFails hready hnone =>
    refine inv_osError hs (hissued (by rw [hready]; exact List.mem_singleton_self _)) _ ?_
    intro k hk
    rw [hnone] at hk
    cases hk
  | send hready hcur =>
    exact inv_send hs (hissued (by rw [hready]; exact List.mem_singleton_self _)) hready hcur
  | @sendFails call retry k delivered hready hcur =>
    have hcall : call.number < s.next := hissued (by rw [hready]; exact List.mem_singleton_self _)
    refine inv_fails hs hcall hcur retry rfl rfl ?_
    cases delivered with
    | false => exact hs.pending_lt k
    | true => exact pending_append hs hcall k
  | receive hsent hcur hwhole hreply => exact inv_receive hs hsent hcur hwhole hreply
  | @receiveFails call retry k hsent hcur =>
    have hcall : call.number < s.next := hissued (by rw [hsent]; exact List.mem_singleton_self _)
    exact inv_fails hs hcall hcur retry rfl rfl (hs.pending_lt k)
  | handle halive hpending hrun => exact inv_handle hs hpending hrun
  | handlerEnds halive hpending hrun => exact inv_handlerEnds hs _ hpending

/-! ## What one step can do -/

theorem final_handleLine {op : Op} {s : σ} :
    final ((Handler.handleLine (SharedConnection.requestLine op)).run s) = final (op.call.run s) := by
  rw [SharedConnection.handleLine_requestLine, EStateM.run_bind]
  cases op.call.run s <;> rfl

/-- A pending request was pending before or is the current call's. -/
theorem pending_step {s t : LazyClient σ} {e : Event} (h : Step s e t) :
    ∀ k, ∀ c ∈ (t.conns k).pending, c ∈ (s.conns k).pending ∨
      c ∈ issued s.phase ∧ s.current = some k := by
  have hset {k : ℕ} {c : Connection} (hc : ∀ x ∈ c.pending, x ∈ (s.conns k).pending ∨
      x ∈ issued s.phase ∧ s.current = some k) : ∀ j, ∀ x ∈ ((s.setConn k c).conns j).pending,
      x ∈ (s.conns j).pending ∨ x ∈ issued s.phase ∧ s.current = some j := by
    intro j x hx
    by_cases hj : j = k
    · subst hj
      rw [conns_setConn_self] at hx
      exact hc x hx
    · rw [conns_setConn_of_ne s c hj] at hx
      exact .inl hx
  cases h with
  | begin op hidle => exact fun k c hc => .inl hc
  | connect hready hnone => exact fun k c hc => .inl hc
  | connectFails hready hnone =>
    intro k c hc
    rw [conns_osError] at hc
    exact .inl hc
  | send hready hcur =>
    refine hset (fun x hx => ?_)
    rcases List.mem_append.mp hx with hx | hx
    · exact .inl hx
    · rw [List.mem_singleton.mp hx, hready]
      exact .inr ⟨List.mem_singleton_self _, hcur⟩
  | sendFails delivered hready hcur =>
    rw [conns_osError]
    refine hset (fun x hx => ?_)
    cases delivered with
    | false => exact .inl hx
    | true =>
      rcases List.mem_append.mp hx with hx | hx
      · exact .inl hx
      · rw [List.mem_singleton.mp hx, hready]
        exact .inr ⟨List.mem_singleton_self _, hcur⟩
  | receive hsent hcur hwhole hreply => exact hset (fun x hx => .inl hx)
  | receiveFails hsent hcur =>
    rw [conns_osError]
    exact hset (fun x hx => .inl hx)
  | handle halive hpending hrun =>
    exact hset (fun x hx => .inl (by rw [hpending]; exact List.mem_cons_of_mem _ hx))
  | handlerEnds halive hpending hrun =>
    exact hset (fun x hx => .inl (by rw [hpending]; exact List.mem_cons_of_mem _ hx))

theorem issued_step {s t : LazyClient σ} {e : Event} (h : Step s e t) :
    s.next ≤ t.next ∧ ∀ c ∈ issued t.phase, c ∈ issued s.phase ∨
      ∃ op, e = .begin op ∧ c = ⟨s.next, op⟩ := by
  have herr {u : LazyClient σ} {call : NumberedCall} {retry : Bool} (hcall : call ∈ issued s.phase) :
      ∀ c ∈ issued (u.osError call retry).phase, c ∈ issued s.phase ∨
        ∃ op, e = .begin op ∧ c = ⟨s.next, op⟩ := by
    intro c hc
    rw [issued_osError hc]
    exact .inl hcall
  cases h with
  | begin op hidle =>
    exact ⟨Nat.le_succ _, fun c hc => .inr ⟨op, rfl, List.mem_singleton.mp hc⟩⟩
  | connect hready hnone => exact ⟨le_rfl, fun c hc => .inl hc⟩
  | connectFails hready hnone =>
    rw [next_osError]
    exact ⟨le_rfl, herr (by rw [hready]; exact List.mem_singleton_self _)⟩
  | send hready hcur =>
    refine ⟨le_rfl, fun c hc => .inl ?_⟩
    rw [hready]
    exact hc
  | sendFails delivered hready hcur =>
    rw [next_osError]
    exact ⟨le_rfl, herr (by rw [hready]; exact List.mem_singleton_self _)⟩
  | receive hsent hcur hwhole hreply => exact ⟨le_rfl, fun c hc => by cases hc⟩
  | receiveFails hsent hcur =>
    rw [next_osError]
    exact ⟨le_rfl, herr (by rw [hsent]; exact List.mem_singleton_self _)⟩
  | handle halive hpending hrun => exact ⟨le_rfl, fun c hc => .inl hc⟩
  | handlerEnds halive hpending hrun => exact ⟨le_rfl, fun c hc => .inl hc⟩

theorem executed_step {s t : LazyClient σ} {e : Event} (h : Step s e t) :
    (t.executed = s.executed ∧ t.device = s.device) ∨
      ∃ k, ∃ call ∈ (s.conns k).pending, t.executed = s.executed ++ [⟨call, s.device⟩] ∧
        t.device = final (call.op.call.run s.device) := by
  cases h with
  | begin op hidle => exact .inl ⟨rfl, rfl⟩
  | connect hready hnone => exact .inl ⟨rfl, rfl⟩
  | connectFails hready hnone => exact .inl ⟨executed_osError _ _ _, device_osError _ _ _⟩
  | send hready hcur => exact .inl ⟨rfl, rfl⟩
  | sendFails delivered hready hcur => exact .inl ⟨executed_osError _ _ _, device_osError _ _ _⟩
  | receive hsent hcur hwhole hreply => exact .inl ⟨rfl, rfl⟩
  | receiveFails hsent hcur => exact .inl ⟨executed_osError _ _ _, device_osError _ _ _⟩
  | @handle k call pending line device halive hpending hrun =>
    refine .inr ⟨k, call, by rw [hpending]; exact List.mem_cons_self, rfl, ?_⟩
    rw [← final_handleLine, hrun]
    rfl
  | @handlerEnds k call pending e device halive hpending hrun =>
    refine .inr ⟨k, call, by rw [hpending]; exact List.mem_cons_self, rfl, ?_⟩
    rw [← final_handleLine, hrun]
    rfl

/-! ## After an acknowledgement -/

def Runs : LazyClient σ → List Event → LazyClient σ → Prop := Run Step

/-- The requests issued before `s` that can still be performed after it. -/
def LatePossible (s : LazyClient σ) (c : NumberedCall) : Prop :=
  ∃ k, s.current ≠ some k ∧ c ∈ (s.conns k).pending

/-- In `t`, every request older than `s` that is pending or was performed since `s` was pending in `s`
on an abandoned connection. -/
structure OldOnlyAbandoned (s t : LazyClient σ) : Prop where
  next_le : s.next ≤ t.next
  issued : ∀ c ∈ issued t.phase, s.next ≤ c.number
  pending : ∀ k, ∀ c ∈ (t.conns k).pending, c.number < s.next → s.LatePossible c
  later : ∃ later, t.executed = s.executed ++ later ∧ ∀ e ∈ later, e.call.number < s.next →
    s.LatePossible e.call

omit [UnidriverIo σ] in
/-- Between calls, with the current connection clear, whatever is pending is on abandoned ones. -/
theorem oldOnlyAbandoned_refl {s : LazyClient σ} (hidle : s.phase = .idle)
    (hclear : ∀ k, s.current = some k → (s.conns k).pending = []) : OldOnlyAbandoned s s where
  next_le := le_rfl
  issued := fun c hc => by
    rw [hidle] at hc
    cases hc
  pending := fun k c hc _ => by
    refine ⟨k, fun hk => ?_, hc⟩
    rw [hclear k hk] at hc
    cases hc
  later := ⟨[], (List.append_nil _).symm, fun e he => by cases he⟩

theorem oldOnlyAbandoned_step {s t u : LazyClient σ} {e : Event} (hst : OldOnlyAbandoned s t)
    (h : Step t e u) : OldOnlyAbandoned s u := by
  obtain ⟨hnext, hissued⟩ := issued_step h
  refine ⟨hst.next_le.trans hnext, ?_, ?_, ?_⟩
  · intro c hc
    rcases hissued c hc with hold | ⟨op, -, rfl⟩
    · exact hst.issued c hold
    · exact hst.next_le
  · intro k c hc hlt
    rcases pending_step h k c hc with hold | ⟨hcur, -⟩
    · exact hst.pending k c hold hlt
    · have := hst.issued c hcur
      omega
  · obtain ⟨later, hlater, hold⟩ := hst.later
    rcases executed_step h with ⟨hexec, -⟩ | ⟨k, call, hcall, hexec, -⟩
    · exact ⟨later, hexec.trans hlater, hold⟩
    · refine ⟨later ++ [⟨call, t.device⟩], by rw [hexec, hlater, List.append_assoc], ?_⟩
      intro x hx hlt
      rcases List.mem_append.mp hx with hx | hx
      · exact hold x hx hlt
      · rw [List.mem_singleton.mp hx] at hlt ⊢
        exact hst.pending k call hcall hlt

/-- After a reply has been read, the current connection is clear. -/
theorem clear_of_receive {s t : LazyClient σ} (hs : s.Inv) (h : Step s .receive t) :
    t.phase = .idle ∧ ∀ k, t.current = some k → (t.conns k).pending = [] := by
  cases h with
  | @receive call retry k reply replies hsent hcur hwhole hreply =>
    obtain ⟨-, -, hpend⟩ := reply_of_sent hs hsent hcur hwhole hreply
    refine ⟨rfl, fun j hj => ?_⟩
    have hjk : k = j := Option.some.inj (hcur.symm.trans hj)
    show ((s.setConn k _).conns j).pending = []
    rw [← hjk, conns_setConn_self]
    exact hpend

/-! ## The value of an acknowledged write -/

section
variable {s t u : LazyClient InMemoryUnidriverIo} {op : Op}

/-- Since `op` began in `s`, whatever is on its way is `op` itself or assigns other bits; and once `op`
was performed its value is shown. -/
structure KeepsValue (s : LazyClient InMemoryUnidriverIo) (op : Op)
    (t : LazyClient InMemoryUnidriverIo) : Prop where
  next_lt : s.next < t.next
  pending : ∀ k, ∀ c ∈ (t.conns k).pending, c = ⟨s.next, op⟩ ∨ ¬ c.op.Overlaps op
  issued : ∀ c ∈ issued t.phase, c = ⟨s.next, op⟩ ∨ ¬ c.op.Overlaps op
  shown : (∃ e ∈ t.executed, e.call = ⟨s.next, op⟩) → op.Shown t.device.memory

theorem keepsValue_begin (hs : s.Inv) (hfree : ∀ k, ∀ c ∈ (s.conns k).pending, ¬ c.op.Overlaps op)
    (h : Step s (.begin op) t) : KeepsValue s op t := by
  cases h with
  | begin op hidle =>
    refine ⟨Nat.lt_succ_self _, fun k c hc => .inr (hfree k c hc), ?_, ?_⟩
    · intro c hc
      exact .inl (List.mem_singleton.mp hc)
    · rintro ⟨e, he, hcall⟩
      have hlt := hs.executed_lt e he
      rw [hcall] at hlt
      exact absurd hlt (Nat.lt_irrefl _)

theorem keepsValue_step {e : Event} (hst : KeepsValue s op t)
    (hother : ∀ op', e = .begin op' → ¬ op'.Overlaps op) (h : Step t e u) : KeepsValue s op u := by
  obtain ⟨hnext, hissued⟩ := issued_step h
  refine ⟨Nat.lt_of_lt_of_le hst.next_lt hnext, ?_, ?_, ?_⟩
  · intro k c hc
    rcases pending_step h k c hc with hold | ⟨hcur, -⟩
    · exact hst.pending k c hold
    · exact hst.issued c hcur
  · intro c hc
    rcases hissued c hc with hold | ⟨op', he, rfl⟩
    · exact hst.issued c hold
    · exact .inr (hother op' he)
  · rcases executed_step h with ⟨hexec, hdev⟩ | ⟨k, call, hcall, hexec, hdev⟩
    · rw [hexec, hdev]
      exact hst.shown
    · rintro ⟨e, he, hce⟩
      rw [hdev, memory_call]
      rcases hst.pending k call hcall with rfl | hfree
      · exact Op.shown_effect op _
      · rw [hexec] at he
        rcases List.mem_append.mp he with hin | hnew
        · exact (hst.shown ⟨e, hin, hce⟩).of_not_overlaps hfree
        · rw [List.mem_singleton.mp hnew] at hce
          have hcall' : call = ⟨s.next, op⟩ := hce
          rw [hcall']
          exact Op.shown_effect op _

theorem keepsValue_run {events : List Event} (hst : KeepsValue s op t)
    (hother : ∀ op', Event.begin op' ∈ events → ¬ op'.Overlaps op) (h : Runs t events u) :
    KeepsValue s op u := by
  induction h with
  | nil => exact hst
  | cons head tail ih =>
    refine ih (keepsValue_step hst (fun op' he => hother op' ?_) head)
      (fun op' hop => hother op' (List.mem_cons_of_mem _ hop))
    rw [he]
    exact List.mem_cons_self

end

/-- **What reconnecting preserves.** In every run a call that returns normally has the result of one
execution of its own request; after an acknowledgement the only older requests that can still be performed
are those pending on abandoned connections; and a write that begins when none of these assigns a bit of
it is shown from its acknowledgement on, as long as no later call assigns a bit of it. -/
theorem reconnect_guarantees (device : InMemoryUnidriverIo) (events : List Event)
    (s : LazyClient InMemoryUnidriverIo) (h : Runs (start device) events s) :
    s.SingleExecution ∧
    (∀ acked, Step s .receive acked → ∀ events' t, Runs acked events' t →
      ∃ later, t.executed = acked.executed ++ later ∧
        ∀ e ∈ later, e.call.number < acked.next → acked.LatePossible e.call) ∧
    ∀ op events' t, (∀ k, ∀ c ∈ (s.conns k).pending, ¬ c.op.Overlaps op) →
      Runs s (.begin op :: events') t → (∀ op', Event.begin op' ∈ events' → ¬ op'.Overlaps op) →
      (∃ result, ∃ f ∈ t.finished, f.call = ⟨s.next, op⟩ ∧ f.result = .ok result) →
      op.Shown t.device.memory := by
  have hinv : ∀ {t : LazyClient InMemoryUnidriverIo} {events'}, Runs s events' t → t.Inv := by
    intro t events' hrun
    exact Run.invariant (P := Inv) (fun _ _ _ hs hstep => inv_step hs hstep) (h.append hrun)
      (inv_start device)
  have hs : s.Inv := hinv (.nil s)
  refine ⟨hs.single, ?_, ?_⟩
  · intro acked hack events' t hrun
    obtain ⟨hidle, hclear⟩ := clear_of_receive hs hack
    have hold : OldOnlyAbandoned acked t := Run.invariant (P := OldOnlyAbandoned acked)
      (fun _ _ _ hst hstep => oldOnlyAbandoned_step hst hstep) hrun (oldOnlyAbandoned_refl hidle hclear)
    exact hold.later
  · intro op events' t hfree hrun hother hack
    have hkeeps : KeepsValue s op t := by
      cases hrun with
      | cons head tail => exact keepsValue_run (keepsValue_begin hs hfree head) hother tail
    obtain ⟨result, f, hf, hcall, hok⟩ := hack
    apply hkeeps.shown
    rcases (hinv hrun).single f hf with herr | ⟨r, ⟨e, he, hecall, -⟩, -⟩
    · rw [hok] at herr
      cases herr
    · exact ⟨e, he, hecall.trans hcall⟩

def firstWrite : NumberedCall := ⟨0, .writeBytes 1 0 [1]⟩

def secondWrite : NumberedCall := ⟨1, .writeBytes 1 0 [2]⟩

/-- One write whose first attempt times out and whose second is answered. -/
theorem repeated_write_guarantees :
    ∃ s : LazyClient InMemoryUnidriverIo,
      Runs (start ⟨Dict.empty⟩) [.begin firstWrite.op, .connect, .send, .receiveFails, .connect, .send,
        .handle 1, .receive] s ∧ s.finished.length = 1 ∧ s.SingleExecution := by
  have hrun : ∃ s : LazyClient InMemoryUnidriverIo,
      Runs (start ⟨Dict.empty⟩) [.begin firstWrite.op, .connect, .send, .receiveFails,
      .connect, .send, .handle 1, .receive] s ∧ s.finished.length = 1 :=
    ⟨_, .cons (.begin _ rfl) (.cons (.connect rfl rfl) (.cons (.send rfl rfl)
      (.cons (.receiveFails rfl rfl) (.cons (.connect rfl rfl) (.cons (.send rfl rfl)
      (.cons (.handle rfl rfl rfl) (.cons (.receive rfl rfl rfl rfl) (.nil _)))))))), rfl⟩
  obtain ⟨s, hrun, hlength⟩ := hrun
  exact ⟨s, hrun, hlength, (reconnect_guarantees _ _ s hrun).1⟩

/-! ## A late write on an abandoned connection -/

/-- The first write times out and is repeated on a new connection, the second is acknowledged there, and
then the first connection's handler performs the first write. -/
theorem late_write_after_ack :
    ∃ (events : List Event) (s acked t : LazyClient InMemoryUnidriverIo),
      Runs (start ⟨Dict.empty⟩) events s ∧ Step s .receive acked ∧
      (∃ f ∈ acked.finished, f.call = secondWrite ∧ f.result = .ok .done) ∧
      Step acked (.handle 0) t ∧
      (∃ before, t.executed = acked.executed ++ [⟨firstWrite, before⟩]) ∧
      ¬ secondWrite.op.Shown t.device.memory := by
  refine ⟨[.begin firstWrite.op, .connect, .send, .receiveFails, .connect, .send, .handle 1, .receive,
      .begin secondWrite.op, .send, .handle 1], _, _, _,
    .cons (.begin _ rfl) (.cons (.connect rfl rfl) (.cons (.send rfl rfl)
      (.cons (.receiveFails rfl rfl) (.cons (.connect rfl rfl) (.cons (.send rfl rfl)
      (.cons (.handle rfl rfl rfl) (.cons (.receive rfl rfl rfl rfl) (.cons (.begin _ rfl)
      (.cons (.send rfl rfl) (.cons (.handle rfl rfl rfl) (.nil _))))))))))),
    .receive rfl rfl rfl rfl, ⟨_, List.mem_append_right _ (List.mem_singleton_self _), rfl, rfl⟩,
    .handle rfl rfl rfl, ⟨_, rfl⟩, ?_⟩
  intro hshown
  have hbyte := congrFun (congrFun hshown 1) 0
  revert hbyte
  decide

end LazyClient
end Tstlan
