import Mathlib.Data.List.Nodup
import Mathlib.Data.List.Count
import Mathlib.Logic.Relation

/-!
# A queue that drops repetitions

Items wait to be delivered in order. Some stand for no event and are dropped, wherever they are; a
part of these is bad and counted. An event with the key of the one delivered last may be a
repetition of it and be dropped too.
-/

namespace MelonDS.DedupQueue

structure Kind (α ε κ : Type*) where
  event : α → Option ε
  key : ε → κ
  bad : α → Bool
  event_bad : ∀ x, bad x = true → event x = none

structure Queue (α ε κ : Type*) where
  pending : List α
  delivered : List ε
  rejected : ℕ
  last : κ

variable {α ε κ : Type*} {K : Kind α ε κ} {q q' : Queue α ε κ} {k : κ}

inductive Move (K : Kind α ε κ) : Queue α ε κ → Queue α ε κ → Prop
  | deliver {x e p d n k} (h : K.event x = some e) :
      Move K ⟨x :: p, d, n, k⟩ ⟨p, d ++ [e], n, K.key e⟩
  | skip {x a b d n k} (h : K.event x = none) (hgood : K.bad x = false) :
      Move K ⟨a ++ x :: b, d, n, k⟩ ⟨a ++ b, d, n, k⟩
  | reject {x a b d n k} (hbad : K.bad x = true) :
      Move K ⟨a ++ x :: b, d, n, k⟩ ⟨a ++ b, d, n + 1, k⟩
  | again {x e a b d n k} (h : K.event x = some e) (hk : K.key e = k) :
      Move K ⟨a ++ x :: b, d, n, k⟩ ⟨a ++ b, d, n, k⟩

/-- What has been delivered and what would be, if nothing more was dropped. -/
def Queue.events (K : Kind α ε κ) (q : Queue α ε κ) : List ε :=
  q.delivered ++ q.pending.filterMap K.event

/-- The last key, `k` before anything is delivered. -/
def Queue.Recent (K : Kind α ε κ) (k : κ) (q : Queue α ε κ) : Prop :=
  q.last = (q.delivered.getLast?.map K.key).getD k

theorem Queue.Recent.mem (h : q.Recent K k) : q.last ∈ k :: q.delivered.map K.key := by
  rw [h]
  cases hlast : q.delivered.getLast? with
  | none => exact List.mem_cons_self ..
  | some e => exact List.mem_cons_of_mem _ (List.mem_map_of_mem (List.mem_of_getLast? hlast))

theorem Move.recent (hmove : Move K q q') (h : q.Recent K k) : q'.Recent K k := by
  cases hmove with
  | deliver hx =>
    rw [Queue.Recent]
    dsimp only
    rw [List.getLast?_concat]
    rfl
  | skip hx hgood => exact h
  | reject hbad => exact h
  | again hx hk => exact h

/-- What the moves keep: nothing is delivered that was not pending, or out of order, the bad items
are counted, every key is seen, and nothing is lost where no key comes twice. -/
structure Accounted (K : Kind α ε κ) (k : κ) (q q' : Queue α ε κ) : Prop where
  order : (q'.events K).Sublist (q.events K)
  prior : q.delivered <+: q'.delivered
  rejected : q'.rejected + q'.pending.countP K.bad = q.rejected + q.pending.countP K.bad
  seen : ∀ e ∈ q.events K, K.key e ∈ k :: (q'.events K).map K.key
  exact : (k :: (q.events K).map K.key).Nodup → q'.events K = q.events K

theorem Accounted.refl (q : Queue α ε κ) : Accounted K k q q :=
  ⟨List.Sublist.refl _, List.prefix_rfl, rfl,
    fun _ he => List.mem_cons_of_mem _ (List.mem_map_of_mem he), fun _ => rfl⟩

theorem Accounted.trans {r : Queue α ε κ} (h : Accounted K k q q') (h' : Accounted K k q' r) :
    Accounted K k q r where
  order := h'.order.trans h.order
  prior := h.prior.trans h'.prior
  rejected := h'.rejected.trans h.rejected
  seen e he := by
    obtain hk | hk := List.mem_cons.mp (h.seen e he)
    · exact hk ▸ List.mem_cons_self ..
    · obtain ⟨e', he', hsame⟩ := List.mem_map.mp hk
      exact hsame ▸ h'.seen e' he'
  exact hnodup := by
    have heq := h.exact hnodup
    rw [← heq] at hnodup
    exact (h'.exact hnodup).trans heq

theorem Move.accounted (hmove : Move K q q') (h : q.Recent K k) : Accounted K k q q' := by
  cases hmove with
  | @deliver x e p d n l hx =>
    have hbad : K.bad x = false := Bool.eq_false_iff.mpr fun hb => by
      rw [K.event_bad x hb] at hx
      cases hx
    have hevents : Queue.events K ⟨p, d ++ [e], n, K.key e⟩ = Queue.events K ⟨x :: p, d, n, l⟩ := by
      rw [Queue.events, Queue.events]
      dsimp only
      rw [List.filterMap_cons_some hx, List.append_assoc]
      rfl
    refine ⟨hevents ▸ List.Sublist.refl _, List.prefix_append _ _, ?_, fun e he => ?_,
      fun _ => hevents⟩
    · dsimp only
      rw [List.countP_cons_of_neg (by simp [hbad])]
    · rw [hevents]
      exact List.mem_cons_of_mem _ (List.mem_map_of_mem he)
  | @skip x a b d n l hx hgood =>
    have hevents : Queue.events K ⟨a ++ b, d, n, l⟩ = Queue.events K ⟨a ++ x :: b, d, n, l⟩ := by
      rw [Queue.events, Queue.events]
      dsimp only
      rw [List.filterMap_append, List.filterMap_append, List.filterMap_cons_none hx]
    refine ⟨hevents ▸ List.Sublist.refl _, List.prefix_rfl, ?_, fun e he => ?_, fun _ => hevents⟩
    · dsimp only
      rw [List.countP_append, List.countP_append, List.countP_cons_of_neg (by simp [hgood])]
    · rw [hevents]
      exact List.mem_cons_of_mem _ (List.mem_map_of_mem he)
  | @reject x a b d n l hbad =>
    have hx := K.event_bad x hbad
    have hevents : Queue.events K ⟨a ++ b, d, n + 1, l⟩ = Queue.events K ⟨a ++ x :: b, d, n, l⟩ := by
      rw [Queue.events, Queue.events]
      dsimp only
      rw [List.filterMap_append, List.filterMap_append, List.filterMap_cons_none hx]
    refine ⟨hevents ▸ List.Sublist.refl _, List.prefix_rfl, ?_, fun e he => ?_, fun _ => hevents⟩
    · dsimp only
      rw [List.countP_append, List.countP_append, List.countP_cons_of_pos hbad]
      omega
    · rw [hevents]
      exact List.mem_cons_of_mem _ (List.mem_map_of_mem he)
  | @again x e a b d n l hx hk =>
    have hbad : K.bad x = false := Bool.eq_false_iff.mpr fun hb => by
      rw [K.event_bad x hb] at hx
      cases hx
    have hafter : Queue.events K ⟨a ++ b, d, n, l⟩ =
        d ++ (a.filterMap K.event ++ b.filterMap K.event) := by
      rw [Queue.events]
      dsimp only
      rw [List.filterMap_append]
    have hbefore : Queue.events K ⟨a ++ x :: b, d, n, l⟩ =
        d ++ (a.filterMap K.event ++ e :: b.filterMap K.event) := by
      rw [Queue.events]
      dsimp only
      rw [List.filterMap_append, List.filterMap_cons_some hx]
    have hlast : K.key e ∈ k :: d.map K.key := hk ▸ h.mem
    refine ⟨?_, List.prefix_rfl, ?_, fun e' he' => ?_, fun hnodup => ?_⟩
    · rw [hafter, hbefore]
      exact ((List.Sublist.refl _).append ((List.sublist_cons_self _ _))).append_left d
    · dsimp only
      rw [List.countP_append, List.countP_append, List.countP_cons_of_neg (by simp [hbad])]
    · rw [hbefore] at he'
      rw [hafter, List.map_append, ← List.cons_append]
      by_cases hsame : e' = e
      · exact List.mem_append_left _ (hsame ▸ hlast)
      · have hrest : e' ∈ d ++ (a.filterMap K.event ++ b.filterMap K.event) := by
          simpa [hsame] using he'
        rw [List.cons_append, ← List.map_append]
        exact List.mem_cons_of_mem _ (List.mem_map_of_mem hrest)
    · rw [hbefore, List.map_append, ← List.cons_append] at hnodup
      exact absurd (List.mem_map_of_mem (by simp)) ((List.nodup_append.mp hnodup).2.2 _ hlast _ · rfl)

theorem accounted_of_moves (hmoves : Relation.ReflTransGen (Move K) q q') (h : q.Recent K k) :
    Accounted K k q q' ∧ q'.Recent K k := by
  induction hmoves with
  | refl => exact ⟨.refl q, h⟩
  | tail _ hmove ih => exact ⟨ih.1.trans (hmove.accounted ih.2), hmove.recent ih.2⟩

end MelonDS.DedupQueue
