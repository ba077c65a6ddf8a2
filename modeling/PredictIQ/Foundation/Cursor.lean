/-
  PredictIQ.Foundation.Cursor: following the cursors of a paged listing.

  A reader starts without a cursor and goes on with the cursor of each page.
  `Reading answered items n next` says that after `n` pages it has the items
  and the cursor `next`.  Where every page is the slice at the position of its
  cursor, and names the position it ends at, the reader gets every item once.
-/
import PredictIQ.Foundation.Slices

namespace Foundation

variable {C T : Type}

/-- What has been read after some pages, one after the other. -/
inductive Reading (answered : Option C → List T → Option C → Prop) : List T → Nat → Option C → Prop
  | first {items next} : answered none items next → Reading answered items 1 next
  | more {items n cursor page next} : Reading answered items n (some cursor) →
      answered (some cursor) page next → Reading answered (items ++ page) (n + 1) next

/-- Every reader comes to an end, and has then read everything, in order. -/
structure VisitsAll (answered : Option C → List T → Option C → Prop) (all : List T) : Prop where
  ends : ∀ items n next, Reading answered items n next → n ≤ all.length + 1
  complete : ∀ items n, Reading answered items n none → items = all

/-- A page of `limit` items at a position, and the cursor of the next one. -/
structure PageAt (position : Option C → Nat) (limit : Nat) (all : List T)
    (cursor : Option C) (items : List T) (next : Option C) : Prop where
  items_eq : items = slice (position cursor) limit all
  last : next = none → all.length ≤ position cursor + limit
  more : ∀ c, next = some c → position (some c) = position cursor + limit ∧ position cursor + limit < all.length

variable {answered : Option C → List T → Option C → Prop} {position : Option C → Nat} {limit n : Nat}
variable {all items : List T} {next : Option C}

/-- **After some pages** a reader has a prefix, and stands where it ends. -/
theorem Reading.begins (hstart : position none = 0)
    (hpages : ∀ c page next, answered c page next → PageAt position limit all c page next)
    (h : Reading answered items n next) :
    items = all.take (n * limit) ∧ (next = none → all.length ≤ n * limit)
      ∧ ∀ c, next = some c → position (some c) = n * limit ∧ n * limit < all.length := by
  induction h with
  | first h =>
      have hpage := hpages _ _ _ h
      have hsum : position none + limit = 1 * limit := by rw [hstart, Nat.zero_add, Nat.one_mul]
      refine ⟨?_, hsum ▸ hpage.last, hsum ▸ hpage.more⟩
      rw [hpage.items_eq, hstart, Nat.one_mul]
      rfl
  | more hread h ih =>
      obtain ⟨hitems, -, hat⟩ := ih
      have hpage := hpages _ _ _ h
      rename_i n cursor page next
      have hsum : position (some cursor) + limit = (n + 1) * limit := by
        rw [(hat _ rfl).1, Nat.succ_mul]
      refine ⟨?_, hsum ▸ hpage.last, hsum ▸ hpage.more⟩
      rw [hitems, hpage.items_eq, (hat _ rfl).1, Nat.succ_mul, List.take_add]
      rfl

variable (position) in
/-- **Pages that follow one another** are visited once each. -/
theorem visitsAll_of_pageAt (hlimit : 0 < limit) (hstart : position none = 0)
    (hpages : ∀ c page next, answered c page next → PageAt position limit all c page next) :
    VisitsAll answered all where
  ends items n next h := by
    -- all pages but the last are full
    cases h with
    | first => exact Nat.succ_le_succ (Nat.zero_le _)
    | more hread =>
        rename_i n _ _ _
        have hlt := ((hread.begins hstart hpages).2.2 _ rfl).2
        have hle : n ≤ n * limit := Nat.le_mul_of_pos_right n hlimit
        omega
  complete items n h := by
    obtain ⟨hitems, hlast, -⟩ := h.begins hstart hpages
    rw [hitems]
    exact List.take_of_length_le (hlast rfl)

end Foundation
