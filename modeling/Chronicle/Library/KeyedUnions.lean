import Mathlib.Data.List.Basic
import Mathlib.Data.List.Pairwise
import Mathlib.Data.Prod.Lex
import Mathlib.Order.MinMax
import Mathlib.Order.Monotone.Basic

/-!
# Unions of closed intervals under keys

Closed intervals stand under keys, in the order of the keys and of their begins. One walk carries a
running interval: an interval of the same key that begins inside it extends it, every other one
takes its place.
-/

namespace Chronicle.Library.KeyedUnions

variable {K T S : Type*} [LinearOrder K] [LinearOrder T] [LinearOrder S]

/-- A closed interval under a key. -/
structure Keyed (K T : Type*) where
  key : K
  start : T
  stop : T
deriving DecidableEq

/-- What the intervals are put in order by. -/
def Keyed.order (i : Keyed K T) : K ×ₗ T := toLex (i.key, i.start)

/-- The point lies in an interval under the key, where the ends lie among the points. -/
def Covers (place : T → S) (intervals : List (Keyed K T)) (key : K) (t : S) : Prop :=
  ∃ i ∈ intervals, i.key = key ∧ place i.start ≤ t ∧ t ≤ place i.stop

/-- The walk, given the running interval. -/
def unionFrom (current : Keyed K T) : List (Keyed K T) → List (Keyed K T)
  | [] => [current]
  | i :: intervals =>
      if current.key = i.key ∧ i.start ≤ current.stop then
        unionFrom { current with stop := max current.stop i.stop } intervals
      else current :: unionFrom i intervals

/-- The union of intervals that stand in order. -/
def union : List (Keyed K T) → List (Keyed K T)
  | [] => []
  | i :: intervals => unionFrom i intervals

/-- Every interval ends no earlier than it begins. -/
def Proper (intervals : List (Keyed K T)) : Prop := ∀ i ∈ intervals, i.start ≤ i.stop

/-- The intervals stand in order. -/
def InOrder (intervals : List (Keyed K T)) : Prop :=
  intervals.Pairwise fun i j => i.order ≤ j.order

variable {current i : Keyed K T} {intervals : List (Keyed K T)} {key : K} {place : T → S} {t : S}

theorem order_le_iff {j : Keyed K T} :
    i.order ≤ j.order ↔ i.key < j.key ∨ i.key = j.key ∧ i.start ≤ j.start :=
  Prod.Lex.toLex_le_toLex

omit [LinearOrder K] [LinearOrder T] in
theorem covers_cons : Covers place (i :: intervals) key t ↔
    (i.key = key ∧ place i.start ≤ t ∧ t ≤ place i.stop) ∨ Covers place intervals key t :=
  List.exists_mem_cons_iff _ _ _

/-- Nothing under the running interval's key comes before it. -/
theorem le_of_mem_unionFrom (horder : InOrder (current :: intervals)) {x : Keyed K T}
    (h : x ∈ unionFrom current intervals) : current.order ≤ x.order := by
  induction intervals generalizing current with
  | nil =>
      rw [List.mem_singleton.mp h]
  | cons i intervals ih =>
      obtain ⟨hfirst, hrest⟩ := List.pairwise_cons.mp horder
      rw [unionFrom] at h
      split at h
      · exact @ih { current with stop := max current.stop i.stop }
          (List.pairwise_cons.mpr ⟨fun j hj => hfirst j (List.mem_cons_of_mem i hj), hrest.of_cons⟩) h
      · obtain rfl | h := List.mem_cons.mp h
        · exact le_rfl
        · exact (hfirst i List.mem_cons_self).trans (ih hrest h)

/-- Under every key the union covers what the intervals cover. -/
theorem covers_unionFrom (hplace : Monotone place) (horder : InOrder (current :: intervals))
    (hproper : Proper (current :: intervals)) :
    Covers place (unionFrom current intervals) key t ↔
      Covers place (current :: intervals) key t := by
  induction intervals generalizing current with
  | nil => exact Iff.rfl
  | cons i intervals ih =>
      obtain ⟨hfirst, hrest⟩ := List.pairwise_cons.mp horder
      obtain ⟨hcurrent, hproper⟩ := List.forall_mem_cons.mp hproper
      rw [unionFrom]
      split
      · next hmerge =>
          have hextended := @ih { current with stop := max current.stop i.stop }
            (List.pairwise_cons.mpr
              ⟨fun j hj => hfirst j (List.mem_cons_of_mem i hj), hrest.of_cons⟩)
            (List.forall_mem_cons.mpr ⟨hcurrent.trans (le_max_left _ _), fun j hj =>
              hproper j (List.mem_cons_of_mem i hj)⟩)
          rw [hextended, covers_cons, covers_cons, covers_cons, ← or_assoc]
          refine or_congr_left ?_
          -- the two intervals meet, so that together they are one
          have hbegin : current.start ≤ i.start := by
            obtain hlt | hle := order_le_iff.mp (hfirst i List.mem_cons_self)
            · exact absurd hmerge.1 hlt.ne
            · exact hle.2
          constructor
          · rintro ⟨hkey, hlower, hupper⟩
            rw [hplace.map_max] at hupper
            obtain hupper | hupper := le_max_iff.mp hupper
            · exact .inl ⟨hkey, hlower, hupper⟩
            · obtain hle | hlt := le_or_gt t (place current.stop)
              · exact .inl ⟨hkey, hlower, hle⟩
              · exact .inr ⟨hmerge.1.symm.trans hkey, (hplace hmerge.2).trans hlt.le, hupper⟩
          · rintro (⟨hkey, hlower, hupper⟩ | ⟨hkey, hlower, hupper⟩)
            · exact ⟨hkey, hlower, hupper.trans (hplace (le_max_left _ _))⟩
            · exact ⟨hmerge.1.trans hkey, (hplace hbegin).trans hlower,
                hupper.trans (hplace (le_max_right _ _))⟩
      · rw [covers_cons, ih hrest hproper, covers_cons (i := current)]

/-- Intervals under one key are kept apart, each ending before the next begins. -/
theorem separated_unionFrom (horder : InOrder (current :: intervals)) :
    (unionFrom current intervals).Pairwise fun a b =>
      a.order ≤ b.order ∧ (a.key = b.key → a.stop < b.start) := by
  induction intervals generalizing current with
  | nil => exact List.pairwise_singleton _ _
  | cons i intervals ih =>
      obtain ⟨hfirst, hrest⟩ := List.pairwise_cons.mp horder
      rw [unionFrom]
      split
      · exact ih (List.pairwise_cons.mpr
          ⟨fun j hj => hfirst j (List.mem_cons_of_mem i hj), hrest.of_cons⟩)
      · next hmerge =>
          refine List.pairwise_cons.mpr ⟨fun x hx => ?_, ih hrest⟩
          have hi := hfirst i List.mem_cons_self
          have hx := le_of_mem_unionFrom hrest hx
          refine ⟨hi.trans hx, fun hkey => ?_⟩
          -- a later interval of the same key comes after one that does not meet the running one
          have hsame : current.key = i.key := by
            obtain hlt | ⟨heq, -⟩ := order_le_iff.mp hi
            · obtain hlt' | ⟨heq', -⟩ := order_le_iff.mp hx
              · exact absurd hkey (hlt.trans hlt').ne
              · exact absurd (hkey.trans heq'.symm) hlt.ne
            · exact heq
          have hbegin : i.start ≤ x.start := by
            obtain hlt | ⟨-, hle⟩ := order_le_iff.mp hx
            · exact absurd (hsame.symm.trans hkey) hlt.ne
            · exact hle
          exact (not_le.mp fun hle => hmerge ⟨hsame, hle⟩).trans_le hbegin

/-- The ends of the union are ends of the intervals under the same key. -/
theorem ends_of_mem_unionFrom {x : Keyed K T} (h : x ∈ unionFrom current intervals) :
    (∃ i ∈ current :: intervals, i.key = x.key ∧ i.start = x.start) ∧
      ∃ i ∈ current :: intervals, i.key = x.key ∧ i.stop = x.stop := by
  induction intervals generalizing current with
  | nil =>
      obtain rfl := List.mem_singleton.mp h
      exact ⟨⟨x, h, rfl, rfl⟩, x, h, rfl, rfl⟩
  | cons i intervals ih =>
      rw [unionFrom] at h
      split at h
      · next hmerge =>
          obtain ⟨⟨j, hj, hstart⟩, k, hk, hkey, hstop⟩ := ih h
          constructor
          · obtain rfl | hj := List.mem_cons.mp hj
            · exact ⟨current, List.mem_cons_self, hstart⟩
            · exact ⟨j, List.mem_cons_of_mem _ (List.mem_cons_of_mem i hj), hstart⟩
          · obtain rfl | hk := List.mem_cons.mp hk
            · obtain hmax | hmax := max_choice current.stop i.stop
              · exact ⟨current, List.mem_cons_self, hkey, hmax.symm.trans hstop⟩
              · exact ⟨i, List.mem_cons_of_mem _ List.mem_cons_self, hmerge.1.symm.trans hkey,
                  hmax.symm.trans hstop⟩
            · exact ⟨k, List.mem_cons_of_mem _ (List.mem_cons_of_mem i hk), hkey, hstop⟩
      · obtain rfl | h := List.mem_cons.mp h
        · exact ⟨⟨x, List.mem_cons_self, rfl, rfl⟩, x, List.mem_cons_self, rfl, rfl⟩
        · obtain ⟨⟨j, hj, hstart⟩, k, hk, hstop⟩ := ih h
          exact ⟨⟨j, List.mem_cons_of_mem _ hj, hstart⟩, k, List.mem_cons_of_mem _ hk, hstop⟩

/-! ## The whole union -/

theorem covers_union (hplace : Monotone place) (horder : InOrder intervals)
    (hproper : Proper intervals) :
    Covers place (union intervals) key t ↔ Covers place intervals key t := by
  cases intervals with
  | nil => exact Iff.rfl
  | cons i intervals => exact covers_unionFrom hplace horder hproper

theorem separated_union (horder : InOrder intervals) :
    (union intervals).Pairwise fun a b => a.order ≤ b.order ∧ (a.key = b.key → a.stop < b.start) := by
  cases intervals with
  | nil => exact .nil
  | cons i intervals => exact separated_unionFrom horder

theorem ends_of_mem_union {x : Keyed K T} (h : x ∈ union intervals) :
    (∃ i ∈ intervals, i.key = x.key ∧ i.start = x.start) ∧
      ∃ i ∈ intervals, i.key = x.key ∧ i.stop = x.stop := by
  cases intervals with
  | nil => exact absurd h List.not_mem_nil
  | cons i intervals => exact ends_of_mem_unionFrom h

end Chronicle.Library.KeyedUnions
