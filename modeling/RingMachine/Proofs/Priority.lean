import RingMachine.Machine.Observer
import Mathlib

/-!
The order of a registry's hooks. A hook is inserted after every hook of at least its priority,
so registering hooks one after another is an insertion sort that keeps them by priority,
highest first. It is stable: a new hook passes over its equals, so among equal priorities the
hooks stay in registration order. Whole priorities compare as integers, which makes the order
total; that is what the invariant `Ranked` needs.
-/

namespace RingMachine

@[simp] theorem Amount.atMost_whole (a b : Int) :
    (Amount.whole a).atMost (.whole b) = decide (a ≤ b) := by
  simp only [Amount.atMost, Amount.compare?, Amount.place?, Amount.Place.compare, Int.pow,
    min_self, sub_self, Int.toNat_zero, pow_zero]
  rcases lt_trichotomy a b with below | same | above
  · simp [compare_lt_iff_lt.mpr below, below.le]
  · simp [same]
  · simp [compare_gt_iff_gt.mpr above, not_le.mpr above]

namespace Hook

def Whole (h : Hook) : Prop := ∃ n : Int, h.priority = .whole n

def ByPriority (hooks : List Hook) : Prop :=
  hooks.Pairwise fun a b => b.priority.atMost a.priority

variable {a b c : Hook}

theorem Whole.atMost_refl (aw : a.Whole) : a.priority.atMost a.priority := by
  obtain ⟨n, an⟩ := aw
  simp [an]

theorem Whole.atMost_of_not (aw : a.Whole) (bw : b.Whole)
    (above : ¬ a.priority.atMost b.priority) :
    b.priority.atMost a.priority := by
  obtain ⟨n, an⟩ := aw
  obtain ⟨k, bk⟩ := bw
  simp only [an, bk, Amount.atMost_whole, decide_eq_true_eq, not_le] at above ⊢
  omega

theorem Whole.atMost_trans (aw : a.Whole) (bw : b.Whole) (cw : c.Whole)
    (ab : a.priority.atMost b.priority) (bc : b.priority.atMost c.priority) :
    a.priority.atMost c.priority := by
  obtain ⟨n, an⟩ := aw
  obtain ⟨k, bk⟩ := bw
  obtain ⟨j, cj⟩ := cw
  simp only [an, bk, cj, Amount.atMost_whole, decide_eq_true_eq] at ab bc ⊢
  omega

end Hook

/-- Hooks with whole priorities, kept by priority, highest first. -/
structure Ranked (hooks : List Hook) : Prop where
  whole : ∀ h ∈ hooks, h.Whole
  sorted : Hook.ByPriority hooks

section Insert

variable {h : Hook}

theorem Ranked.of_cons {g : Hook} {rest : List Hook} (ranked : Ranked (g :: rest)) : Ranked rest :=
  ⟨fun k member => ranked.whole k (List.mem_cons_of_mem g member),
    (List.pairwise_cons.mp ranked.sorted).2⟩

theorem insertByPriority_perm (h : Hook) (l : List Hook) :
    (insertByPriority h l).Perm (h :: l) := by
  induction l with
  | nil => rfl
  | cons g rest ih =>
    unfold insertByPriority
    split
    · exact ((ih.cons g).trans (List.Perm.swap h g rest))
    · rfl

theorem mem_insertByPriority {g : Hook} {l : List Hook} :
    g ∈ insertByPriority h l ↔ g = h ∨ g ∈ l := by
  rw [(insertByPriority_perm h l).mem_iff, List.mem_cons]

theorem Ranked.insert {l : List Hook} (ranked : Ranked l) (hw : h.Whole) :
    Ranked (insertByPriority h l) := by
  refine ⟨fun g member => ?_, ?_⟩
  · rcases mem_insertByPriority.mp member with rfl | old
    · exact hw
    · exact ranked.whole g old
  induction l with
  | nil => exact List.pairwise_singleton _ h
  | cons g rest ih =>
    have gw := ranked.whole g List.mem_cons_self
    have above := (List.pairwise_cons.mp ranked.sorted).1
    have tail := ranked.of_cons
    unfold insertByPriority
    split
    · -- The hook goes after `g`, which stays above everything after it.
      rename_i below
      refine List.pairwise_cons.mpr ⟨fun k member => ?_, ih tail⟩
      rcases mem_insertByPriority.mp member with rfl | old
      · exact below
      · exact above k old
    · -- The hook goes first: it is above `g`, and so above everything below `g`.
      rename_i notBelow
      have hg := hw.atMost_of_not gw notBelow
      refine List.pairwise_cons.mpr ⟨fun k member => ?_, ranked.sorted⟩
      rcases List.mem_cons.mp member with rfl | old
      · exact hg
      · exact (tail.whole k old).atMost_trans gw hw (above k old) hg

theorem Ranked.filter_insert {l : List Hook} (ranked : Ranked l) (hw : h.Whole) (p : Amount) :
    (insertByPriority h l).filter (fun g => g.priority = p) =
      l.filter (fun g => g.priority = p) ++ [h].filter (fun g => g.priority = p) := by
  induction l with
  | nil => rfl
  | cons g rest ih =>
    have above := (List.pairwise_cons.mp ranked.sorted).1
    unfold insertByPriority
    split
    · simp only [List.filter_cons, ih ranked.of_cons]
      split <;> simp
    · -- The hook goes before `g`; no hook from `g` on has its priority, since all are below it.
      rename_i notBelow
      by_cases same : h.priority = p
      · have none : (g :: rest).filter (fun k => k.priority = p) = [] := by
          refine List.filter_eq_nil_iff.mpr fun k member tied => ?_
          have kp : k.priority = h.priority := by simpa [same] using tied
          rcases List.mem_cons.mp member with rfl | old
          · exact notBelow (kp ▸ hw.atMost_refl)
          · exact notBelow (kp ▸ above k old)
        rw [List.filter_cons_of_pos (by simpa using same), none]
        simp [same]
      · rw [List.filter_cons_of_neg (by simpa using same)]
        simp [same]

end Insert

namespace Registry

theorem foldl_addHook_hooks (hs : List Hook) (reg : Registry) :
    (hs.foldl addHook reg).hooks = hs.foldl (fun l h => insertByPriority h l) reg.hooks := by
  induction hs generalizing reg with
  | nil => rfl
  | cons h rest ih => exact ih (reg.addHook h)

theorem foldl_insert_ranked (hs : List Hook) (whole : ∀ h ∈ hs, h.Whole) :
    ∀ l, Ranked l →
      let hooks := hs.foldl (fun l h => insertByPriority h l) l
      hooks.Perm (l ++ hs) ∧ Ranked hooks ∧
        ∀ p : Amount, hooks.filter (fun g => g.priority = p) =
          (l ++ hs).filter (fun g => g.priority = p) := by
  induction hs with
  | nil => intro l ranked; simpa using ranked
  | cons h rest ih =>
    intro l ranked
    have hw := whole h List.mem_cons_self
    obtain ⟨perm, next, ties⟩ := ih (fun g member => whole g (List.mem_cons_of_mem h member))
      (insertByPriority h l) (ranked.insert hw)
    refine ⟨?_, next, fun p => ?_⟩
    · -- The hook is inserted where the sort puts it, which is a place in `l ++ h :: rest`.
      have inserted : (insertByPriority h l ++ rest).Perm (h :: l ++ rest) :=
        (insertByPriority_perm h l).append_right rest
      exact perm.trans (inserted.trans List.perm_middle.symm)
    · rw [List.foldl_cons, ties p, List.filter_append, ranked.filter_insert hw p,
        List.append_assoc, ← List.filter_append, ← List.filter_append]
      rfl

theorem filter_keeps_order {hooks hs : List Hook} (q : Hook → Bool) (perm : hooks.Perm hs)
    (sorted : Hook.ByPriority hooks)
    (ties : ∀ p : Amount, hooks.filter (fun h => h.priority = p) =
      hs.filter (fun h => h.priority = p)) :
    (hooks.filter q).Perm (hs.filter q) ∧ Hook.ByPriority (hooks.filter q) ∧
      ∀ p : Amount, (hooks.filter q).filter (fun h => h.priority = p) =
        (hs.filter q).filter (fun h => h.priority = p) := by
  refine ⟨perm.filter q, sorted.filter q, fun p => ?_⟩
  -- Filtering by kind and by priority commute.
  rw [List.filter_filter, List.filter_filter]
  simp only [Bool.and_comm (decide (_ = p))]
  rw [← List.filter_filter, ← List.filter_filter, ties p]

theorem filter_insertAll (hs : List Hook) (whole : ∀ h ∈ hs, h.Whole) (q : Hook → Bool) :
    let hooks := (hs.foldl (fun l h => insertByPriority h l) []).filter q
    hooks.Perm (hs.filter q) ∧ Hook.ByPriority hooks ∧
      ∀ p : Amount, hooks.filter (fun h => h.priority = p) =
        (hs.filter q).filter (fun h => h.priority = p) := by
  obtain ⟨perm, ranked, ties⟩ :=
    foldl_insert_ranked hs whole [] ⟨by simp, List.Pairwise.nil⟩
  simp only [List.nil_append] at perm ties
  exact filter_keeps_order q perm ranked.sorted ties

/-- The hooks of an event, in a registry built by registering hooks with whole priorities, are
the hooks registered for it, each once, by priority, highest first, and in registration order
among equal priorities. -/
theorem hooksFor_registered (hs : List Hook) (whole : ∀ h ∈ hs, h.Whole) (rules : List StepRule)
    (e : Event) :
    let hooks := (hs.foldl addHook { rules := rules }).hooksFor e
    hooks.Perm (hs.filter fun h => h.event = e) ∧ Hook.ByPriority hooks ∧
      ∀ p : Amount, hooks.filter (fun h => h.priority = p) =
        (hs.filter fun h => h.event = e).filter fun h => h.priority = p := by
  rw [hooksFor, foldl_addHook_hooks]
  exact filter_insertAll hs whole _

end Registry

end RingMachine
