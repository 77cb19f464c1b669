import Mathlib.Data.List.Chain
import Mathlib.Data.List.DropRight
import Mathlib.Order.Lattice

/-! # Windows over a stream of timed samples

A window keeps the last `n` samples. `push` is what one new sample does to it; `graft` puts samples recorded
elsewhere in front of it, those older than its first. When every window on the way is increasing is
reduced to the samples themselves: `pushes_increasing_iff` for a stream, `graft_increasing_iff` for a
stream whose window was grafted once. -/
namespace Foundations.Window
open List
set_option autoImplicit false

variable {α β τ : Type}

/-! ## The last elements of a list -/

theorem rtake_append (n : ℕ) (xs ys : List α) : (xs ++ ys).rtake n = xs.rtake (n - ys.length) ++ ys.rtake n := by
  simp only [rtake_eq_reverse_take_reverse, reverse_append, take_append, length_reverse]

theorem rtake_of_length_le {n : ℕ} {xs : List α} (h : xs.length ≤ n) : xs.rtake n = xs := by
  rw [rtake, Nat.sub_eq_zero_of_le h, drop_zero]

theorem rtake_length (n : ℕ) (xs : List α) : (xs.rtake n).length = min n xs.length := by
  rw [rtake, length_drop]
  omega

theorem rtake_suffix (n : ℕ) (xs : List α) : xs.rtake n <:+ xs := drop_suffix _ xs

/-- Dropping before an append drops nothing that the append keeps. -/
theorem rtake_rtake_append (n : ℕ) (xs ys : List α) : (xs.rtake n ++ ys).rtake n = (xs ++ ys).rtake n := by
  rw [rtake_append, rtake_append]
  congr 1
  simp only [rtake_eq_reverse_take_reverse, reverse_reverse, take_take]
  rw [Nat.min_eq_left (Nat.sub_le _ _)]

theorem rtake_eq_nil {n : ℕ} {xs : List α} (hn : 0 < n) : xs.rtake n = [] ↔ xs = [] := by
  rw [← length_eq_zero_iff, rtake_length, ← length_eq_zero_iff]
  omega

theorem getLast?_rtake {n : ℕ} (hn : 0 < n) (xs : List α) : (xs.rtake n).getLast? = xs.getLast? := by
  obtain ⟨m, rfl⟩ : ∃ m, n = m + 1 := ⟨n - 1, by omega⟩
  induction xs using reverseRecOn with
  | nil => rw [rtake_nil]
  | append_singleton xs x => rw [rtake_concat_succ, getLast?_concat, getLast?_concat]

/-! ## Pushing samples -/

def push (n : ℕ) (s : List α) (x : α) : List α := (s ++ [x]).rtake n

theorem foldl_push {n : ℕ} {s : List α} (h : s.length ≤ n) (xs : List α) :
    xs.foldl (push n) s = (s ++ xs).rtake n := by
  induction xs generalizing s with
  | nil => rw [foldl_nil, append_nil, rtake_of_length_le h]
  | cons x xs ih =>
    have hlen : (push n s x).length ≤ n := (rtake_length n _).trans_le (min_le_left _ _)
    rw [foldl_cons, ih hlen, push, rtake_rtake_append, append_assoc, singleton_append]

section Chains
variable {R : α → α → Prop}

/-- A group of samples that arrive together, no two of them in order, makes every window a chain only if it
extends the chain by at most one sample. -/
theorem chain_group {n : ℕ} (hn : 2 ≤ n) {s xs g : List α} (hg : ∀ a ∈ g, ∀ b ∈ g, ¬R a b)
    (hchain : (s.rtake n ++ xs).IsChain R) (hwindow : ((s ++ xs ++ g).rtake n).IsChain R) :
    (s.rtake n ++ xs ++ g).IsChain R := by
  obtain ⟨m, rfl⟩ : ∃ m, n = m + 2 := ⟨n - 2, by omega⟩
  rcases eq_nil_or_concat' g with rfl | ⟨g', x, rfl⟩
  · rwa [append_nil]
  rcases eq_nil_or_concat' g' with rfl | ⟨g'', y, rfl⟩
  · rw [nil_append] at hwindow ⊢
    rw [rtake_concat_succ, isChain_append] at hwindow
    refine isChain_append.mpr ⟨hchain, isChain_singleton x, ?_⟩
    rw [getLast?_rtake (Nat.succ_pos m), getLast?_append,
      ← getLast?_rtake (Nat.succ_pos (m + 1)) s, ← getLast?_append] at hwindow
    exact hwindow.2.2
  · exfalso
    rw [← append_assoc, rtake_concat_succ, ← append_assoc, rtake_concat_succ, append_assoc,
      isChain_append] at hwindow
    exact hg y (by simp) x (by simp) (isChain_pair.mp hwindow.2.1)

/-- Samples arrive in groups, no two of one group in order. All windows on the way are chains exactly if the
whole stream after the first window is one. -/
theorem groups_chain_iff {n : ℕ} (hn : 2 ≤ n) (s : List α) (f : β → List α) (es : List β)
    (hgroup : ∀ e ∈ es, ∀ a ∈ f e, ∀ b ∈ f e, ¬R a b) :
    (∀ ys, ys <+: es → ((s ++ ys.flatMap f).rtake n).IsChain R) ↔ (s.rtake n ++ es.flatMap f).IsChain R := by
  constructor
  · intro h
    induction es using reverseRecOn with
    | nil => simpa using h [] prefix_rfl
    | append_singleton es e ih =>
      have hchain : (s.rtake n ++ es.flatMap f).IsChain R :=
        ih (fun d hd => hgroup d (mem_append_left _ hd)) (fun ys hys => h ys (hys.trans (prefix_append es [e])))
      have hwindow := h (es ++ [e]) prefix_rfl
      rw [flatMap_append, flatMap_singleton, ← append_assoc] at hwindow ⊢
      exact chain_group hn (hgroup e (by simp)) hchain hwindow
  · rintro h ys ⟨zs, rfl⟩
    rw [flatMap_append, ← append_assoc] at h
    have hfirst := h.prefix (prefix_append _ _)
    rw [← rtake_rtake_append]
    exact hfirst.suffix (rtake_suffix n _)

end Chains

/-! ## Grafting older samples -/

section Timed
variable [LinearOrder τ] (time : α → τ)

def Increasing (xs : List α) : Prop := xs.Pairwise (fun a b => time a < time b)

/-- The samples recorded before the first one of a window. -/
def older (pts : List α) : List α → List α
  | [] => pts
  | first :: _ => pts.filter (fun p => time p < time first)

def graft (n : ℕ) (pts s : List α) : List α := (older time pts s ++ s).rtake n

variable {time}

theorem increasing_iff_nodup {xs : List α} (h : xs.Pairwise (fun a b => time a ≤ time b)) :
    Increasing time xs ↔ (xs.map time).Nodup := by
  rw [Nodup, pairwise_map]
  constructor
  · exact fun hlt => hlt.imp ne_of_lt
  · exact fun hne => (h.and hne).imp (fun hab => lt_of_le_of_ne hab.1 hab.2)

theorem increasing_iff_isChain {xs : List α} : Increasing time xs ↔ xs.IsChain (fun a b => time a < time b) :=
  haveI : IsTrans α (fun a b => time a < time b) := ⟨fun _ _ _ => lt_trans⟩
  isChain_iff_pairwise.symm

theorem older_of_increasing {pts s : List α} (hs : s ≠ []) (h : Increasing time s) :
    older time pts s = pts.filter (fun p => ∀ e ∈ s, time p < time e) := by
  cases s with
  | nil => exact absurd rfl hs
  | cons first s =>
    refine filter_congr (fun p _ => decide_eq_decide.mpr ⟨fun hp e he => ?_, fun hp => hp first mem_cons_self⟩)
    rcases mem_cons.mp he with rfl | he
    · exact hp
    · exact hp.trans (rel_of_pairwise_cons h he)

/-- With samples in time order, one that the last of them precedes is preceded by all of them. -/
theorem forall_lt_of_window {n : ℕ} (hn : 0 < n) {pts : List α}
    (hpts : pts.Pairwise (fun a b => time a ≤ time b)) {e : α} (h : ∀ p ∈ pts.rtake n, time p < time e) :
    ∀ p ∈ pts, time p < time e := by
  rcases eq_nil_or_concat' pts with rfl | ⟨pts, last, rfl⟩
  · simp
  · obtain ⟨m, rfl⟩ : ∃ m, n = m + 1 := ⟨n - 1, by omega⟩
    have hlast : time last < time e := h last (by rw [rtake_concat_succ]; simp)
    intro p hp
    rcases mem_append.mp hp with hp | hp
    · exact ((pairwise_append.mp hpts).2.2 p hp last (mem_singleton_self last)).trans_lt hlast
    · rwa [mem_singleton.mp hp]

/-! ## Grafting an increasing record -/

theorem older_eq_filter (pts s : List α) :
    older time pts s = pts.filter (fun p => ∀ first ∈ s.head?, time p < time first) := by
  cases s with
  | nil => simp [older]
  | cons first s => simp [older]

theorem mem_older {pts s : List α} {p : α} :
    p ∈ older time pts s ↔ p ∈ pts ∧ ∀ first ∈ s.head?, time p < time first := by
  rw [older_eq_filter, mem_filter, decide_eq_true_eq]

theorem older_append_increasing {pts s : List α} (hpts : Increasing time pts) (hs : Increasing time s) :
    Increasing time (older time pts s ++ s) := by
  refine pairwise_append.mpr ⟨?_, hs, fun p hp e he => ?_⟩
  · rw [older_eq_filter]
    exact hpts.sublist filter_sublist
  · cases s with
    | nil => cases he
    | cons first s =>
      have hfirst : time p < time first := (mem_older.mp hp).2 first rfl
      rcases mem_cons.mp he with rfl | he
      · exact hfirst
      · exact hfirst.trans (rel_of_pairwise_cons hs he)

theorem graft_increasing {pts s : List α} (n : ℕ) (hpts : Increasing time pts) (hs : Increasing time s) :
    Increasing time (graft time n pts s) :=
  (older_append_increasing hpts hs).sublist (rtake_suffix n _).sublist

theorem graft_length_le (n : ℕ) (pts s : List α) : (graft time n pts s).length ≤ n :=
  (rtake_length n _).trans_le (min_le_left _ _)

theorem suffix_graft {n : ℕ} {s : List α} (pts : List α) (hlen : s.length ≤ n) : s <:+ graft time n pts s := by
  rw [graft, rtake_append, rtake_of_length_le hlen]
  exact suffix_append _ _

/-- Nothing recorded is older than the first of what was just put together. -/
theorem older_older_append {pts s : List α} (hpts : Increasing time pts) :
    older time pts (older time pts s ++ s) = [] ∨ older time pts s = [] := by
  cases hold : older time pts s with
  | nil => exact .inr rfl
  | cons first rest =>
    left
    refine eq_nil_iff_forall_not_mem.mpr (fun p hp => ?_)
    obtain ⟨hmem, hlt⟩ := mem_older.mp hp
    have hpf : time p < time first := hlt first rfl
    have hfirst : first ∈ older time pts s := hold ▸ mem_cons_self
    have hpold : p ∈ older time pts s :=
      mem_older.mpr ⟨hmem, fun e he => hpf.trans ((mem_older.mp hfirst).2 e he)⟩
    have hold' : Increasing time (first :: rest) := by
      rw [← hold, older_eq_filter]
      exact hpts.sublist filter_sublist
    rw [hold] at hpold
    rcases mem_cons.mp hpold with rfl | hrest
    · exact lt_irrefl _ hpf
    · exact lt_asymm hpf (rel_of_pairwise_cons hold' hrest)

/-- Grafting the same record twice is grafting it once, whether or not the first graft was cut. -/
theorem graft_graft {n : ℕ} {pts s : List α} (hpts : Increasing time pts) :
    graft time n pts (graft time n pts s) = graft time n pts s := by
  have hcap : (graft time n pts s).length ≤ n := graft_length_le n pts s
  rw [graft, rtake_append, rtake_of_length_le hcap, append_left_eq_self]
  rcases Nat.lt_or_ge (graft time n pts s).length n with hlt | hge
  · -- the first graft was not cut
    have hwhole : graft time n pts s = older time pts s ++ s := by
      rw [graft, rtake_length] at hlt
      exact rtake_of_length_le (by omega)
    rw [hwhole]
    rcases older_older_append (s := s) hpts with hnone | hnone
    · rw [hnone, rtake_nil]
    · rw [hnone, nil_append, hnone, rtake_nil]
  · rw [Nat.sub_eq_zero_of_le hge, rtake, Nat.sub_zero, drop_length]

variable (time)

/-- What makes the windows increasing on both sides of one graft: no two live samples have the same time, nor
have two of the grafted ones that fit, and samples grafted before anything was live precede what follows. -/
structure Seamless (n : ℕ) (pre pts post : List α) : Prop where
  live : ((pre ++ post).map time).Nodup
  kept : (((pts.filter (fun p => ∀ e ∈ pre.rtake n, time p < time e)).rtake (n - pre.length)).map time).Nodup
  seam : pre = [] → ∀ p ∈ pts, ∀ e ∈ post, time p < time e

variable {time}

theorem graft_of_increasing {n : ℕ} {pts s : List α} (hs : s ≠ []) (h : Increasing time s) (hlen : s.length ≤ n) :
    graft time n pts s = (pts.filter (fun p => ∀ e ∈ s, time p < time e)).rtake (n - s.length) ++ s := by
  rw [graft, older_of_increasing hs h, rtake_append, rtake_of_length_le hlen]

/-- A window of an increasing stream connects to what follows as the stream does. -/
theorem increasing_window_append {n : ℕ} (hn : 0 < n) {pre post : List α} (hpre : Increasing time pre) :
    Increasing time (pre.rtake n ++ post) ↔ Increasing time (pre ++ post) := by
  have hwindow : Increasing time (pre.rtake n) := hpre.sublist (rtake_suffix n pre).sublist
  rw [increasing_iff_isChain] at hpre hwindow ⊢
  rw [increasing_iff_isChain, isChain_append, isChain_append, getLast?_rtake hn]
  simp only [hpre, hwindow, true_and]

theorem graft_nil_increasing_iff {n : ℕ} (hn : 0 < n) {pts post : List α}
    (hpts : pts.Pairwise (fun a b => time a ≤ time b)) (hpost : post.Pairwise (fun a b => time a ≤ time b)) :
    Increasing time (graft time n pts [] ++ post) ↔ Seamless time n [] pts post := by
  have hgraft : graft time n pts [] = pts.rtake n := by rw [graft, older, append_nil]
  have hkept : pts.filter (fun p => ∀ e ∈ ([] : List α).rtake n, time p < time e) = pts :=
    filter_eq_self.mpr (fun p _ => decide_eq_true (by rw [rtake_nil]; simp))
  have hrecorded : (pts.rtake n).Pairwise (fun a b => time a ≤ time b) :=
    hpts.sublist (rtake_suffix n pts).sublist
  rw [hgraft, Increasing, pairwise_append]
  constructor
  · rintro ⟨hseed, hlive, hcross⟩
    refine ⟨(increasing_iff_nodup hpost).mp hlive, ?_, fun _ p hp e he => ?_⟩
    · rw [hkept]
      exact (increasing_iff_nodup hrecorded).mp hseed
    · exact forall_lt_of_window hn hpts (fun q hq => hcross q hq e he) p hp
  · rintro ⟨hlive, hseed, hseam⟩
    rw [hkept] at hseed
    exact ⟨(increasing_iff_nodup hrecorded).mpr hseed, (increasing_iff_nodup hpost).mpr hlive,
      fun p hp e he => hseam rfl p ((rtake_suffix n pts).subset hp) e he⟩

theorem graft_increasing_iff {n : ℕ} (hn : 0 < n) {pre pts post : List α}
    (hpts : pts.Pairwise (fun a b => time a ≤ time b))
    (hlive : (pre ++ post).Pairwise (fun a b => time a ≤ time b)) :
    Increasing time pre ∧ Increasing time (graft time n pts (pre.rtake n) ++ post) ↔
      Seamless time n pre pts post := by
  rcases eq_or_ne pre [] with rfl | hpre
  · rw [nil_append] at hlive
    rw [rtake_nil, graft_nil_increasing_iff hn hpts hlive]
    exact and_iff_right Pairwise.nil
  have hs : pre.rtake n ≠ [] := mt (rtake_eq_nil hn).mp hpre
  have hlen : n - (pre.rtake n).length = n - pre.length := by
    rw [rtake_length]
    omega
  have hkept : (((pts.filter (fun p => ∀ e ∈ pre.rtake n, time p < time e)).rtake (n - pre.length))).Pairwise
      (fun a b => time a ≤ time b) := (hpts.sublist filter_sublist).sublist (rtake_suffix _ _).sublist
  have hsplit (h : Increasing time pre) : graft time n pts (pre.rtake n) =
      (pts.filter (fun p => ∀ e ∈ pre.rtake n, time p < time e)).rtake (n - pre.length) ++ pre.rtake n := by
    rw [graft_of_increasing hs (h.sublist (rtake_suffix n pre).sublist) (by rw [rtake_length]; omega), hlen]
  constructor
  · rintro ⟨hinc, hall⟩
    rw [hsplit hinc, append_assoc, Increasing, pairwise_append] at hall
    exact ⟨(increasing_iff_nodup hlive).mp ((increasing_window_append hn hinc).mp hall.2.1),
      (increasing_iff_nodup hkept).mp hall.1, fun h => absurd h hpre⟩
  · rintro ⟨hnodup, hseed, -⟩
    have hinc : Increasing time (pre ++ post) := (increasing_iff_nodup hlive).mpr hnodup
    have hpreinc : Increasing time pre := hinc.sublist (sublist_append_left pre post)
    refine ⟨hpreinc, ?_⟩
    rw [hsplit hpreinc, append_assoc, Increasing, pairwise_append]
    refine ⟨(increasing_iff_nodup hkept).mpr hseed, (increasing_window_append hn hpreinc).mpr hinc, ?_⟩
    intro p hp b hb
    have hbelow : ∀ e ∈ pre.rtake n, time p < time e :=
      of_decide_eq_true (mem_filter.mp ((rtake_suffix _ _).subset hp)).2
    rcases mem_append.mp hb with hb | hb
    · exact hbelow b hb
    · obtain ⟨e, he⟩ := exists_mem_of_ne_nil _ hs
      exact (hbelow e he).trans ((pairwise_append.mp hinc).2.2 e ((rtake_suffix n pre).subset he) b hb)

theorem groups_increasing_iff {n : ℕ} (hn : 2 ≤ n) (s : List α) (f : β → List α) (es : List β)
    (hgroup : ∀ e ∈ es, ∀ a ∈ f e, ∀ b ∈ f e, time a = time b) :
    (∀ ys, ys <+: es → Increasing time ((s ++ ys.flatMap f).rtake n)) ↔
      Increasing time (s.rtake n ++ es.flatMap f) := by
  simp only [increasing_iff_isChain]
  exact groups_chain_iff hn s f es (fun e he a ha b hb => (hgroup e he a ha b hb).not_lt)

/-- Groups of samples of one time arrive, the window is grafted once between two of them, and all windows on
the way are increasing exactly if the graft is seamless. -/
theorem windows_increasing_iff {n : ℕ} (hn : 2 ≤ n) (f : β → List α) {pre post : List β} {pts : List α}
    (hgroup : ∀ e ∈ pre ++ post, ∀ a ∈ f e, ∀ b ∈ f e, time a = time b)
    (hpts : pts.Pairwise (fun a b => time a ≤ time b))
    (hlive : (pre.flatMap f ++ post.flatMap f).Pairwise (fun a b => time a ≤ time b)) :
    ((∀ ys, ys <+: pre → Increasing time ((ys.flatMap f).rtake n)) ∧
      ∀ ys, ys <+: post →
        Increasing time ((graft time n pts ((pre.flatMap f).rtake n) ++ ys.flatMap f).rtake n)) ↔
      Seamless time n (pre.flatMap f) pts (post.flatMap f) := by
  have hgraft : (graft time n pts ((pre.flatMap f).rtake n)).rtake n =
      graft time n pts ((pre.flatMap f).rtake n) :=
    rtake_of_length_le ((rtake_length n _).trans_le (min_le_left _ _))
  have hfirst := groups_increasing_iff hn [] f pre (fun e he => hgroup e (mem_append_left _ he))
  rw [groups_increasing_iff hn _ f post (fun e he => hgroup e (mem_append_right _ he)), hgraft,
    ← graft_increasing_iff (by omega) hpts hlive]
  simpa using and_congr_left (fun _ => hfirst)

end Timed
end Foundations.Window
