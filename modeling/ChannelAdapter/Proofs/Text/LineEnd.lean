import ChannelAdapter.Proofs.Text.Cluster
import ChannelAdapter.Proofs.Text.Line
/-!
Line ends and clusters. A line end is a cluster of its own behind any text that it does not merge
with, which is what a hard cut has to decide on: whether the line end still fits.
-/

namespace ChannelAdapter.Text

def IsLineEnd (cs : List Char) : Prop :=
  cs = ['\n'] ∨ cs = ['\r', '\n']

/-- A line end that is no part of a longer one. -/
structure EndsWith (cs lineEnd : List Char) : Prop where
  isLineEnd : IsLineEnd lineEnd
  apart : lineEnd = ['\n'] → cs.getLast? ≠ some '\r'

theorem IsLineEnd.ne_nil {e : List Char} (h : IsLineEnd e) : e ≠ [] := by
  rcases h with rfl | rfl <;> simp

theorem IsLineEnd.newline_mem {e : List Char} (h : IsLineEnd e) : '\n' ∈ e := by
  rcases h with rfl | rfl <;> simp

theorem EndsWith.of_suffix {cs rest e : List Char} (h : EndsWith cs e) (hrest : rest <:+ cs) :
    EndsWith rest e := by
  refine ⟨h.isLineEnd, fun hnewline hlast => h.apart hnewline ?_⟩
  obtain ⟨taken, rfl⟩ := hrest
  rw [List.getLast?_append, hlast]
  rfl

theorem EndsWith.not_isLineEnd_append {cs e : List Char} (h : EndsWith cs e) (hcs : cs ≠ []) :
    ¬ IsLineEnd (cs ++ e) := by
  intro hboth
  have hpos := List.length_pos_iff.mpr hcs
  rcases h.isLineEnd with rfl | rfl
  · rcases hboth with hnewline | hcrlf
    · have hlength := congrArg List.length hnewline
      simp only [List.length_append, List.length_cons, List.length_nil] at hlength
      omega
    · have hcr : cs = ['\r'] := (List.append_left_inj ['\n']).mp hcrlf
      exact h.apart rfl (by rw [hcr]; rfl)
  · have hlength : (cs ++ ['\r', '\n']).length ≤ 2 := by
      rcases hboth with hboth | hboth <;> simp [hboth]
    simp only [List.length_append, List.length_cons, List.length_nil] at hlength
    omega

theorem IsLine.eq_chompLine_or {line : List Char} (h : IsLine line) :
    ('\n' ∉ line ∧ chompLine line = line) ∨
      ∃ e, line = chompLine line ++ e ∧ EndsWith (chompLine line) e ∧ '\n' ∉ chompLine line := by
  rcases h.eq_or with hno | ⟨init, hinit, rfl⟩
  · left
    refine ⟨hno, ?_⟩
    rw [chompLine]
    split
    · next rest hrev => exact absurd (List.mem_reverse.mp (hrev ▸ List.mem_cons_self)) hno
    · next rest hrev => exact absurd (List.mem_reverse.mp (hrev ▸ List.mem_cons_self)) hno
    · rfl
  · right
    rcases List.eq_nil_or_concat' init with rfl | ⟨front, c, rfl⟩
    · exact ⟨['\n'], rfl, ⟨.inl rfl, by simp [chompLine]⟩, by simp [chompLine]⟩
    · have hfront : '\n' ∉ front := fun hmem => hinit (List.mem_append_left _ hmem)
      by_cases hc : c = '\r'
      · subst hc
        have hchomp : chompLine (front ++ ['\r'] ++ ['\n']) = front := by simp [chompLine]
        rw [hchomp]
        exact ⟨['\r', '\n'], by simp, ⟨.inr rfl, by simp⟩, hfront⟩
      · have hchomp : chompLine (front ++ [c] ++ ['\n']) = front ++ [c] := by
          simp [chompLine, hc]
        rw [hchomp]
        exact ⟨['\n'], rfl, ⟨.inl rfl, by simp [hc]⟩, hinit⟩

/-! Line ends begin a cluster. -/

namespace Cluster

private theorem eq_of_ite_eq {p : Prop} [Decidable p] {a b k : Kind} (h : (if p then a else b) = k)
    (ha : a ≠ k) : b = k :=
  ((ite_eq_iff.mp h).resolve_left fun hleft => ha hleft.2).2

theorem Kind.of_eq_carriageReturn {c : Char} (h : Kind.of c = .carriageReturn) : c = '\r' := by
  by_contra hc
  have hcode : c.toNat ≠ 13 := fun hcode => hc (Char.toNat_inj.mp hcode)
  rw [Kind.of, if_neg hcode] at h
  -- no other kind in the list of cases is that of a carriage return
  repeat replace h := eq_of_ite_eq h (by first | decide | (split <;> decide))
  cases h

theorem joins_carriageReturn (x : Context) : x.joins .carriageReturn = false := by
  obtain ⟨last, pictographic, conjunct, oddFlags⟩ := x
  cases last <;> rfl

theorem joins_lineFeed {x : Context} (h : x.last ≠ .carriageReturn) :
    x.joins .lineFeed = false := by
  obtain ⟨last, pictographic, conjunct, oddFlags⟩ := x
  cases last with
  | carriageReturn => exact absurd rfl h
  | _ => rfl

theorem continuation_append_of_isLineEnd {x : Context} {cs e : List Char} (h : EndsWith cs e)
    (hlast : cs = [] → e = ['\n'] → x.last ≠ .carriageReturn) :
    continuation x (cs ++ e) = ((continuation x cs).1, (continuation x cs).2 ++ e) := by
  induction cs generalizing x with
  | nil =>
      rcases h.isLineEnd with rfl | rfl
      · have hjoins := joins_lineFeed (hlast rfl rfl)
        simp [continuation, show Kind.of '\n' = .lineFeed from rfl, hjoins]
      · have hjoins := joins_carriageReturn x
        simp [continuation, show Kind.of '\r' = .carriageReturn from rfl, hjoins]
  | cons c cs ih =>
      rw [List.cons_append, continuation, continuation]
      split
      · have hnext : cs = [] → e = ['\n'] → (x.next (.of c)).last ≠ .carriageReturn := by
          rintro rfl hnewline hkind
          apply h.apart hnewline
          rw [Kind.of_eq_carriageReturn hkind]
          rfl
        simp only [ih (h.of_suffix (List.suffix_cons c cs)) hnext]
      · rfl

theorem first_append_of_isLineEnd {cs e : List Char} (h : EndsWith cs e) (hcs : cs ≠ []) :
    first (cs ++ e) = ((first cs).1, (first cs).2 ++ e) := by
  cases cs with
  | nil => exact absurd rfl hcs
  | cons c cs =>
      have hlast : cs = [] → e = ['\n'] → (Context.start (.of c)).last ≠ .carriageReturn := by
        rintro rfl hnewline hkind
        apply h.apart hnewline
        rw [Kind.of_eq_carriageReturn hkind]
        rfl
      rw [List.cons_append, first, first,
        continuation_append_of_isLineEnd (h.of_suffix (List.suffix_cons c cs)) hlast]

theorem first_of_isLineEnd {e : List Char} (h : IsLineEnd e) : first e = (e, []) := by
  rcases h with rfl | rfl <;> rfl

end Cluster

/-! Hard cuts before a line end. -/

theorem clusterFloor_of_ne_nil {cs : List Char} (hcs : cs ≠ []) (pos : Nat) :
    clusterFloor cs pos =
      if width (Cluster.first cs).1 ≤ pos then
        width (Cluster.first cs).1 +
          clusterFloor (Cluster.first cs).2 (pos - width (Cluster.first cs).1)
      else 0 := by
  rw [clusterFloor, dif_neg hcs]

theorem clusterFloor_of_first {cs g rest : List Char} (hcs : cs ≠ [])
    (hfirst : Cluster.first cs = (g, rest)) (pos : Nat) :
    clusterFloor cs pos =
      if width g ≤ pos then width g + clusterFloor rest (pos - width g) else 0 := by
  rw [clusterFloor_of_ne_nil hcs, hfirst]

@[simp] theorem clusterFloor_nil (pos : Nat) : clusterFloor [] pos = 0 := by
  rw [clusterFloor, dif_pos rfl]

theorem width_first_add (cs : List Char) :
    width (Cluster.first cs).1 + width (Cluster.first cs).2 = width cs := by
  rw [← width_append, Cluster.first_append]

theorem clusterFloor_of_fits {cs : List Char} {pos : Nat} (h : width cs ≤ pos) :
    clusterFloor cs pos = width cs := by
  induction cs, pos using clusterFloor.induct with
  | case1 pos => rw [clusterFloor_nil, width_nil]
  | case2 cs pos hcs _ hfits ih =>
      have hwidth := width_first_add cs
      rw [clusterFloor_of_ne_nil hcs, if_pos hfits, ih (by omega)]
      omega
  | case3 cs pos hcs _ hfits =>
      have hwidth := width_first_add cs
      omega

/-- A floor that does not reach the line end does not depend on it. -/
theorem clusterFloor_append {cs e : List Char} (h : EndsWith cs e) (pos : Nat) :
    clusterFloor (cs ++ e) pos =
      if width cs + width e ≤ pos then width cs + width e else clusterFloor cs pos := by
  induction cs, pos using clusterFloor.induct with
  | case1 pos =>
      have hfirst := Cluster.first_of_isLineEnd h.isLineEnd
      rw [List.nil_append, clusterFloor_of_first h.isLineEnd.ne_nil hfirst]
      simp
  | case2 cs pos hcs _ hfits ih =>
      have hwidth := width_first_add cs
      have hrest : EndsWith (Cluster.first cs).2 e := h.of_suffix ⟨_, Cluster.first_append cs⟩
      have hfirst := Cluster.first_append_of_isLineEnd h hcs
      rw [clusterFloor_of_first (by simp [hcs]) hfirst, if_pos hfits, ih hrest,
        clusterFloor_of_ne_nil hcs, if_pos hfits]
      split_ifs <;> omega
  | case3 cs pos hcs _ hfits =>
      have hwidth := width_first_add cs
      have hfirst := Cluster.first_append_of_isLineEnd h hcs
      rw [clusterFloor_of_first (by simp [hcs]) hfirst, if_neg hfits, if_neg (by omega),
        clusterFloor_of_ne_nil hcs, if_neg hfits]

theorem hardCut_append {cs e : List Char} (h : EndsWith cs e) (hcs : cs ≠ []) (budget : Nat) :
    hardCut (cs ++ e) budget =
      if width cs + width e ≤ budget then width cs + width e else hardCut cs budget := by
  have hpos := width_pos.mpr hcs
  rw [hardCut, clusterFloor_append h, Cluster.first_append_of_isLineEnd h hcs]
  by_cases hfits : width cs + width e ≤ budget
  · rw [if_pos hfits, if_pos hfits, if_neg (by omega)]
  · rw [if_neg hfits, if_neg hfits, hardCut]

theorem hardCut_of_fits {cs : List Char} {budget : Nat} (hcs : cs ≠ []) (h : width cs ≤ budget) :
    hardCut cs budget = width cs := by
  have hpos := width_pos.mpr hcs
  rw [hardCut, clusterFloor_of_fits h, if_neg (by omega)]

theorem hardCut_of_isLineEnd {e : List Char} (h : IsLineEnd e) (budget : Nat) :
    hardCut e budget = width e := by
  have hfirst := Cluster.first_of_isLineEnd h
  rw [hardCut, clusterFloor_of_first h.ne_nil hfirst, hfirst, clusterFloor_nil]
  split_ifs <;> first | rfl | contradiction

end ChannelAdapter.Text
