import Tstlan.Foundations.Hex
import Tstlan.Foundations.Url

/-! # Percent-encoded paths

A segment of a path is a text with its bytes outside a small alphabet written as `%XX`; `unquote` reads
such escapes back as UTF-8. A URL parser takes the segments `.` and `..` for steps in the path, and empty
segments fall out when a server redirects to the canonical path. A list of texts survives the way through
all this exactly when no text is empty, has a slash or is one of the two steps. -/
namespace Foundations
set_option autoImplicit false

namespace Percent

/-! ## Escapes -/

/-- The characters that `encodeURIComponent` leaves. -/
def unreserved (c : Char) : Bool := c.isAlphanum || c ∈ ['-', '_', '.', '!', '~', '*', '\'', '(', ')']

def digit (n : ℕ) : Char := if n < 10 then Char.ofNat (48 + n) else Char.ofNat (55 + n)

def encodeByte (b : UInt8) : List Char := ['%', digit (b.toNat / 16), digit (b.toNat % 16)]

def encodeChar (c : Char) : List Char :=
  if unreserved c then [c] else (String.utf8EncodeChar c).flatMap encodeByte

/-- `encodeURIComponent`. -/
def encode (cs : List Char) : List Char := cs.flatMap encodeChar

/-- The bytes of a text with escapes; what is not an escape stands for itself. -/
def decodeBytes : List Char → List UInt8
  | [] => []
  | c :: cs =>
    if c = '%' then
      match cs with
      | h :: l :: rest =>
        match Hex.value h, Hex.value l with
        | some hi, some lo => UInt8.ofNat (16 * hi + lo) :: decodeBytes rest
        | _, _ => String.utf8EncodeChar c ++ decodeBytes (h :: l :: rest)
      | rest => String.utf8EncodeChar c ++ decodeBytes rest
    else String.utf8EncodeChar c ++ decodeBytes cs

/-- `urllib.parse.unquote`; none where it puts replacement characters for bytes that are not UTF-8. -/
def unquote (cs : List Char) : Option (List Char) := (decodeBytes cs).toByteArray.utf8Decode?.map Array.toList

/-- The bytes of a text. -/
def utf8 (cs : List Char) : List UInt8 := cs.flatMap String.utf8EncodeChar

theorem utf8_append (cs ds : List Char) : utf8 (cs ++ ds) = utf8 cs ++ utf8 ds := List.flatMap_append

theorem value_digit : ∀ n < 16, Hex.value (digit n) = some n := by decide

theorem decodeBytes_encodeByte (b : UInt8) (rest : List Char) :
    decodeBytes (encodeByte b ++ rest) = b :: decodeBytes rest := by
  have hb : b.toNat < 256 := b.toNat_lt
  have hsum : 16 * (b.toNat / 16) + b.toNat % 16 = b.toNat := by omega
  show decodeBytes ('%' :: digit (b.toNat / 16) :: digit (b.toNat % 16) :: rest) = _
  rw [decodeBytes, if_pos rfl]
  simp only [value_digit _ (show b.toNat / 16 < 16 by omega), value_digit _ (show b.toNat % 16 < 16 by omega), hsum,
    UInt8.ofNat_toNat]

theorem decodeBytes_encodeBytes (bs : List UInt8) (rest : List Char) :
    decodeBytes (bs.flatMap encodeByte ++ rest) = bs ++ decodeBytes rest := by
  induction bs with
  | nil => rfl
  | cons b bs ih => rw [List.flatMap_cons, List.append_assoc, decodeBytes_encodeByte, ih, List.cons_append]

/-- A character that is no escape stands for itself. -/
theorem decodeBytes_cons {c : Char} (hc : c ≠ '%') (rest : List Char) :
    decodeBytes (c :: rest) = String.utf8EncodeChar c ++ decodeBytes rest := by
  cases rest with
  | nil => simp [decodeBytes, hc]
  | cons h rest =>
    cases rest with
    | nil => simp [decodeBytes, hc]
    | cons l rest => rw [decodeBytes, if_neg hc]

theorem decodeBytes_encode (cs rest : List Char) : decodeBytes (encode cs ++ rest) = utf8 cs ++ decodeBytes rest := by
  induction cs with
  | nil => rfl
  | cons c cs ih =>
    have hchar : decodeBytes (encodeChar c ++ (encode cs ++ rest)) =
        String.utf8EncodeChar c ++ decodeBytes (encode cs ++ rest) := by
      unfold encodeChar
      split
      · next hc =>
        refine decodeBytes_cons ?_ _
        rintro rfl
        cases hc
      · exact decodeBytes_encodeBytes _ _
    rw [encode, List.flatMap_cons, List.append_assoc, ← encode, hchar, ih, ← List.append_assoc]
    rfl

theorem unquote_of_utf8 {cs ds : List Char} (h : decodeBytes cs = utf8 ds) : unquote cs = some ds := by
  have hdecode : (utf8 ds).toByteArray.utf8Decode? = some ds.toArray := List.utf8Decode?_utf8Encode
  rw [unquote, h, hdecode]
  rfl

theorem encode_of_unreserved {cs : List Char} (h : ∀ c ∈ cs, unreserved c = true) : encode cs = cs := by
  induction cs with
  | nil => rfl
  | cons c cs ih =>
    obtain ⟨hc, hcs⟩ := List.forall_mem_cons.mp h
    rw [encode, List.flatMap_cons, ← encode, ih hcs, encodeChar, if_pos hc]
    rfl

/-- An encoded text has no slash. -/
theorem slash_not_mem_encode (cs : List Char) : '/' ∉ encode cs := by
  intro h
  obtain ⟨c, -, hc⟩ := List.mem_flatMap.mp h
  unfold encodeChar at hc
  split at hc
  · next hunreserved =>
    rw [List.mem_singleton] at hc
    subst hc
    cases hunreserved
  · obtain ⟨b, -, hb⟩ := List.mem_flatMap.mp hc
    have hdigit : ∀ n < 16, digit n ≠ '/' := by decide
    have hlt : b.toNat < 256 := b.toNat_lt
    simp only [encodeByte, List.mem_cons, List.not_mem_nil, or_false] at hb
    refine hb.elim (fun h => by cases h) (fun hb => hb.elim (fun h => ?_) (fun h => ?_))
    · exact hdigit (b.toNat / 16) (by omega) h.symm
    · exact hdigit (b.toNat % 16) (by omega) h.symm

theorem encode_injective : Function.Injective encode := by
  intro cs ds h
  have hback : ∀ ts : List Char, unquote (encode ts) = some ts :=
    fun ts => unquote_of_utf8 (by simpa [decodeBytes] using decodeBytes_encode ts [])
  have hc := hback cs
  have hd := hback ds
  rw [h, hd] at hc
  exact (Option.some.inj hc).symm

theorem encode_eq_nil {cs : List Char} : encode cs = [] ↔ cs = [] := by
  constructor
  · exact fun h => encode_injective h
  · rintro rfl
    rfl

end Percent

namespace Url

/-! ## Segments -/

theorem splitSegments_ne_nil (cs : List Char) : splitSegments cs ≠ [] := by
  cases cs with
  | nil => exact List.cons_ne_nil _ _
  | cons c cs =>
    rw [splitSegments]
    split
    · exact List.cons_ne_nil _ _
    · split <;> exact List.cons_ne_nil _ _

theorem splitSegments_cons {c : Char} (hc : c ≠ '/') {cs s : List Char} {ss : List (List Char)}
    (h : splitSegments cs = s :: ss) : splitSegments (c :: cs) = (c :: s) :: ss := by
  rw [splitSegments, if_neg hc, h]

theorem slash_not_mem_segment {cs s : List Char} (h : s ∈ splitSegments cs) : '/' ∉ s := by
  induction cs generalizing s with
  | nil =>
    rw [splitSegments, List.mem_singleton] at h
    rw [h]
    exact List.not_mem_nil
  | cons c cs ih =>
    by_cases hc : c = '/'
    · rw [splitSegments, if_pos hc, List.mem_cons] at h
      refine h.elim (fun he => ?_) ih
      rw [he]
      exact List.not_mem_nil
    · cases hsplit : splitSegments cs with
      | nil => exact absurd hsplit (splitSegments_ne_nil cs)
      | cons first rest =>
        rw [splitSegments_cons hc hsplit, List.mem_cons] at h
        refine h.elim (fun he => ?_) (fun hrest => ih (hsplit ▸ List.mem_cons_of_mem _ hrest))
        rw [he, List.mem_cons]
        refine not_or.mpr ⟨Ne.symm hc, ih (hsplit ▸ List.mem_cons_self)⟩

/-- The path of these segments. -/
def pathText (segs : List (List Char)) : List Char :=
  if segs = [] then ['/'] else segs.flatMap (fun s => '/' :: s)

theorem splitSegments_append {s : List Char} (hs : '/' ∉ s) (rest : List Char) :
    splitSegments (s ++ '/' :: rest) = s :: splitSegments rest := by
  induction s with
  | nil => rw [List.nil_append, splitSegments, if_pos rfl]
  | cons c s ih =>
    obtain ⟨hc, hs⟩ := not_or.mp (fun h => hs (List.mem_cons.mpr h))
    exact splitSegments_cons (Ne.symm hc) (ih hs)

theorem splitSegments_self {s : List Char} (hs : '/' ∉ s) : splitSegments s = [s] := by
  induction s with
  | nil => rfl
  | cons c s ih =>
    obtain ⟨hc, hs⟩ := not_or.mp (fun h => hs (List.mem_cons.mpr h))
    exact splitSegments_cons (Ne.symm hc) (ih hs)

theorem splitSegments_pathText {segs : List (List Char)} (hne : segs ≠ []) (hsegs : ∀ s ∈ segs, '/' ∉ s) :
    splitSegments (pathText segs) = [] :: segs := by
  have hjoin : ∀ segs : List (List Char), (∀ s ∈ segs, '/' ∉ s) → ∀ first, '/' ∉ first →
      splitSegments (first ++ segs.flatMap (fun s => '/' :: s)) = first :: segs := by
    intro segs
    induction segs with
    | nil =>
      intro _ first hfirst
      rw [List.flatMap_nil, List.append_nil, splitSegments_self hfirst]
    | cons s segs ih =>
      intro hsegs first hfirst
      obtain ⟨hs, hrest⟩ := List.forall_mem_cons.mp hsegs
      rw [List.flatMap_cons, List.cons_append, splitSegments_append hfirst, ih hrest s hs]
  rw [pathText, if_neg hne]
  exact hjoin segs hsegs [] List.not_mem_nil

/-! ## Steps -/

/-- A segment that a URL parser takes for a step in the path; the spellings with `%2e` are not made by `encode`. -/
def IsStep (s : List Char) : Prop := s = ['.'] ∨ s = ['.', '.']

instance (s : List Char) : Decidable (IsStep s) := inferInstanceAs (Decidable (_ ∨ _))

/-- The segments of a path once its steps are taken, after those that have been passed. -/
def walk (passed : List (List Char)) : List (List Char) → List (List Char)
  | [] => passed
  | s :: rest =>
    if s = ['.', '.'] then if rest = [] then passed.dropLast ++ [[]] else walk passed.dropLast rest
    else if s = ['.'] then if rest = [] then passed ++ [[]] else walk passed rest
    else walk (passed ++ [s]) rest

theorem walk_of_no_step {segs : List (List Char)} (h : ∀ s ∈ segs, ¬ IsStep s) (passed : List (List Char)) :
    walk passed segs = passed ++ segs := by
  induction segs generalizing passed with
  | nil => rw [walk, List.append_nil]
  | cons s segs ih =>
    obtain ⟨hs, hrest⟩ := List.forall_mem_cons.mp h
    obtain ⟨hone, htwo⟩ := not_or.mp hs
    rw [walk, if_neg htwo, if_neg hone, ih hrest, List.append_assoc, List.singleton_append]

theorem mem_walk {segs passed : List (List Char)} {s : List Char} (h : s ∈ walk passed segs) :
    s = [] ∨ s ∈ passed ∨ s ∈ segs := by
  induction segs generalizing passed with
  | nil => exact .inr (.inl h)
  | cons first rest ih =>
    have hend : ∀ done : List (List Char), done ⊆ passed → s ∈ done ++ [[]] → s = [] ∨ s ∈ passed ∨ s ∈ first :: rest := by
      intro done hdone hs
      refine (List.mem_append.mp hs).elim (fun hin => .inr (.inl (hdone hin))) (fun hin => .inl ?_)
      exact List.mem_singleton.mp hin
    have hgo : ∀ done : List (List Char), (∀ x ∈ done, x ∈ passed ∨ x = first) → s ∈ walk done rest →
        s = [] ∨ s ∈ passed ∨ s ∈ first :: rest := by
      intro done hdone hs
      refine (ih hs).elim .inl (fun hin => .inr (hin.elim (fun hd => ?_) (fun hr => .inr (List.mem_cons_of_mem _ hr))))
      exact (hdone s hd).imp id (fun he => List.mem_cons.mpr (.inl he))
    unfold walk at h
    split at h
    · split at h
      · exact hend _ (List.dropLast_subset _) h
      · exact hgo _ (fun x hx => .inl (List.dropLast_subset _ hx)) h
    · split at h
      · split at h
        · exact hend _ (List.Subset.refl _) h
        · exact hgo _ (fun x hx => .inl hx) h
      · refine hgo _ (fun x hx => ?_) h
        exact (List.mem_append.mp hx).imp id List.mem_singleton.mp

/-- The segments that count for something. -/
def solid (segs : List (List Char)) : List (List Char) := segs.filter (fun s => s ≠ [] ∧ ¬ IsStep s)

/-- A step takes at least itself away. -/
theorem length_walk (segs passed : List (List Char)) :
    ((walk passed segs).filter (fun s => s ≠ [])).length ≤
      (passed.filter (fun s => s ≠ [])).length + (solid segs).length := by
  have hdrop : ∀ passed : List (List Char),
      (passed.dropLast.filter (fun s => s ≠ [])).length ≤ (passed.filter (fun s => s ≠ [])).length :=
    fun passed => ((List.dropLast_sublist passed).filter _).length_le
  have hempty : (([[]] : List (List Char)).filter (fun s => s ≠ [])).length = 0 := rfl
  induction segs generalizing passed with
  | nil => exact Nat.le_add_right _ _
  | cons s rest ih =>
    have hsolid : (solid rest).length ≤ (solid (s :: rest)).length :=
      ((List.sublist_cons_self s rest).filter _).length_le
    unfold walk
    split
    · split
      · have := hdrop passed
        rw [List.filter_append, List.length_append]
        omega
      · have := ih passed.dropLast
        have := hdrop passed
        omega
    · next htwo =>
      split
      · split
        · rw [List.filter_append, List.length_append]
          omega
        · have := ih passed
          omega
      · next hone =>
        have hstep : ¬ IsStep s := not_or.mpr ⟨hone, htwo⟩
        have hrest := ih (passed ++ [s])
        rw [List.filter_append, List.length_append] at hrest
        by_cases hs : s = []
        · have hnone : ([s].filter (fun s => s ≠ [])).length = 0 := by simp [hs]
          omega
        · have hcons : (solid (s :: rest)).length = (solid rest).length + 1 := by
            rw [solid, List.filter_cons_of_pos (by simp [hs, hstep]), List.length_cons]
            rfl
          have hone : ([s].filter (fun s => s ≠ [])).length = 1 := by simp [hs]
          omega

/-! ## The way of a path -/

/-- The path that a server behind `root` matches. The client takes the steps as the path state of the URL Standard does;
Next.js answers a path with an empty segment or a slash at its end with a redirect (308) to the path without them, which
the client follows with the same method, and rewrites what is under `root`; and uvicorn reads the escapes with
`urllib.parse.unquote` before the router sees the path. -/
def received (root : List Char) (segs : List (List Char)) : Option (List Char) :=
  match walk [] (root :: segs) with
  | [] => none
  | first :: rest => if first = root then Percent.unquote (pathText (rest.filter (fun s => s ≠ []))) else none

theorem decodeBytes_pathText (texts : List (List Char)) :
    Percent.decodeBytes (pathText (texts.map Percent.encode)) = Percent.utf8 (pathText texts) := by
  have hjoin : ∀ texts : List (List Char),
      Percent.decodeBytes ((texts.map Percent.encode).flatMap (fun s => '/' :: s)) =
        Percent.utf8 (texts.flatMap (fun s => '/' :: s)) := by
    intro texts
    induction texts with
    | nil => rfl
    | cons t texts ih =>
      rw [List.map_cons, List.flatMap_cons, List.flatMap_cons, List.cons_append, List.cons_append,
        Percent.decodeBytes_cons (by decide), Percent.decodeBytes_encode, ih, ← Percent.utf8_append]
      rfl
  by_cases hnone : texts = []
  · rw [hnone]
    rfl
  · rw [pathText, pathText, if_neg (by simpa using hnone), if_neg hnone]
    exact hjoin texts

theorem unquote_pathText (texts : List (List Char)) :
    Percent.unquote (pathText (texts.map Percent.encode)) = some (pathText texts) :=
  Percent.unquote_of_utf8 (decodeBytes_pathText texts)

/-- A text that a path can carry. -/
def Portable (t : List Char) : Prop := t ≠ [] ∧ '/' ∉ t ∧ ¬ IsStep t

instance (t : List Char) : Decidable (Portable t) := inferInstanceAs (Decidable (_ ∧ _ ∧ _))

theorem isStep_encode {t : List Char} : IsStep (Percent.encode t) ↔ IsStep t :=
  or_congr ⟨fun h => Percent.encode_injective h, fun h => by rw [h]; rfl⟩
    ⟨fun h => Percent.encode_injective h, fun h => by rw [h]; rfl⟩

/-- What is received is made of encoded texts without slashes, and of no more than count for something. -/
theorem received_cases {root path : List Char} (hroot : root ≠ []) (hplain : ∀ c ∈ root, Percent.unreserved c = true)
    {texts : List (List Char)} (hslash : ∀ t ∈ texts, '/' ∉ t)
    (h : received root (texts.map Percent.encode) = some path) :
    ∃ ts : List (List Char), path = pathText ts ∧ (∀ t ∈ ts, '/' ∉ t) ∧
      ts.length ≤ (solid (texts.map Percent.encode)).length := by
  have hencode := Percent.encode_of_unreserved hplain
  have hsource : ∀ s ∈ root :: texts.map Percent.encode, ∃ t, s = Percent.encode t ∧ '/' ∉ t := by
    intro s hs
    refine (List.mem_cons.mp hs).elim (fun he => ⟨root, he.trans hencode.symm, ?_⟩) (fun hs => ?_)
    · rw [← hencode]
      exact Percent.slash_not_mem_encode root
    · obtain ⟨t, ht, rfl⟩ := List.mem_map.mp hs
      exact ⟨t, rfl, hslash t ht⟩
  have hlift : ∀ segs : List (List Char), (∀ s ∈ segs, ∃ t, s = Percent.encode t ∧ '/' ∉ t) →
      ∃ ts : List (List Char), segs = ts.map Percent.encode ∧ ∀ t ∈ ts, '/' ∉ t := by
    intro segs
    induction segs with
    | nil => exact fun _ => ⟨[], rfl, fun _ ht => absurd ht List.not_mem_nil⟩
    | cons s segs ih =>
      intro hsegs
      obtain ⟨⟨t, rfl, ht⟩, hrest⟩ := List.forall_mem_cons.mp hsegs
      obtain ⟨ts, rfl, hts⟩ := ih hrest
      exact ⟨t :: ts, rfl, List.forall_mem_cons.mpr ⟨ht, hts⟩⟩
  have hlen := length_walk (root :: texts.map Percent.encode) []
  unfold received at h
  cases hwalk : walk [] (root :: texts.map Percent.encode) with
  | nil =>
    rw [hwalk] at h
    cases h
  | cons first rest =>
    rw [hwalk] at h hlen
    simp only at h
    split at h
    · next hfirst =>
      obtain ⟨ts, hts, hslashes⟩ := hlift (rest.filter (fun s => s ≠ [])) (fun s hs => by
        obtain ⟨hs, hne⟩ := List.mem_filter.mp hs
        have hin : s ∈ walk [] (root :: texts.map Percent.encode) := hwalk ▸ List.mem_cons_of_mem _ hs
        refine (mem_walk hin).elim (fun he => absurd he (of_decide_eq_true hne)) (fun hs => hs.elim (fun hnil => ?_) (hsource s))
        exact absurd hnil List.not_mem_nil)
      rw [hts, unquote_pathText] at h
      refine ⟨ts, (Option.some.inj h).symm, hslashes, ?_⟩
      have hcount : (rest.filter (fun s => s ≠ [])).length = ts.length := by rw [hts, List.length_map]
      have hhead : ((first :: rest).filter (fun s => s ≠ [])).length = (rest.filter (fun s => s ≠ [])).length + 1 := by
        rw [List.filter_cons_of_pos (by simp [hfirst, hroot]), List.length_cons]
      have hsolid : (solid (root :: texts.map Percent.encode)).length ≤ (solid (texts.map Percent.encode)).length + 1 := by
        rw [solid, solid, List.filter_cons]
        split <;> simp
      simp only [List.filter_nil, List.length_nil] at hlen
      omega
    · cases h

/-- The texts arrive exactly when a path can carry each of them. -/
theorem received_iff {root : List Char} (hroot : root ≠ []) (hplain : ∀ c ∈ root, Percent.unreserved c = true)
    (hstep : ¬ IsStep root) {texts : List (List Char)} (htexts : ∃ t ∈ texts, t ≠ []) :
    (received root (texts.map Percent.encode)).map splitSegments = some ([] :: texts) ↔ ∀ t ∈ texts, Portable t := by
  have hne : texts ≠ [] := by
    rintro rfl
    obtain ⟨t, ht, -⟩ := htexts
    cases ht
  constructor
  · intro h
    obtain ⟨path, hpath, hsplit⟩ := Option.map_eq_some_iff.mp h
    have hslash : ∀ t ∈ texts, '/' ∉ t :=
      fun t ht => slash_not_mem_segment (hsplit ▸ List.mem_cons_of_mem _ ht)
    obtain ⟨ts, rfl, hts, hlen⟩ := received_cases hroot hplain hslash hpath
    have hcount : ts = texts := by
      by_cases hnil : ts = []
      · subst hnil
        have hroot : splitSegments (pathText []) = [[], []] := by decide
        obtain ⟨t, ht, htne⟩ := htexts
        rw [hroot] at hsplit
        rw [← (List.cons.inj hsplit).2, List.mem_singleton] at ht
        exact absurd ht htne
      · rw [splitSegments_pathText hnil hts] at hsplit
        exact (List.cons.inj hsplit).2
    have hall : (solid (texts.map Percent.encode)).length = (texts.map Percent.encode).length := by
      have hle : (solid (texts.map Percent.encode)).length ≤ (texts.map Percent.encode).length :=
        List.length_filter_le _ _
      rw [List.length_map] at hle ⊢
      rw [hcount] at hlen
      omega
    intro t ht
    have hsolid := List.length_filter_eq_length_iff.mp hall _ (List.mem_map_of_mem ht)
    obtain ⟨htne, htstep⟩ := of_decide_eq_true hsolid
    exact ⟨fun he => htne (Percent.encode_eq_nil.mpr he), hslash t ht, fun hs => htstep (isStep_encode.mpr hs)⟩
  · intro h
    have hwalk : walk [] (root :: texts.map Percent.encode) = root :: texts.map Percent.encode := by
      refine (walk_of_no_step (fun s hs => ?_) []).trans (List.nil_append _)
      refine (List.mem_cons.mp hs).elim (fun he => he ▸ hstep) (fun hs => ?_)
      obtain ⟨t, ht, rfl⟩ := List.mem_map.mp hs
      exact fun hs => (h t ht).2.2 (isStep_encode.mp hs)
    have hfilter : (texts.map Percent.encode).filter (fun s => s ≠ []) = texts.map Percent.encode := by
      refine List.filter_eq_self.mpr (fun s hs => ?_)
      obtain ⟨t, ht, rfl⟩ := List.mem_map.mp hs
      exact decide_eq_true (fun he => (h t ht).1 (Percent.encode_eq_nil.mp he))
    rw [received, hwalk]
    simp only [if_true]
    rw [hfilter, unquote_pathText, Option.map_some, splitSegments_pathText hne (fun t ht => (h t ht).2.1)]

end Url
end Foundations
