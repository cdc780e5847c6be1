import Tmis.Lib.PyText

/-!
# Pagination

`platform.performance.pagination`: a request asks for one page of a sequence.  The offset, the slice and
`has_next` are three expressions in the number of the page and its size, which the request clamps.

* `PageRequest`, `Page`, `paginate` — a request, its answer, and how one comes from the other;
* `visit` — the pages from a request on, as long as there is a next one;
* `hasNext_iff` — there is a next page iff it has items;
* `flatMap_visit` — what the pages from a request on hold;
* `pagination_lossless` — from page one on they hold the sequence.
-/

namespace Tmis.Platform.Pagination

open Tmis.Lib

/-- `_MAX_PAGE_SIZE`. -/
def maxPageSize : ℤ := 200

/-- A request that `__post_init__` has let through. -/
structure PageRequest where
  page : ℤ
  pageSize : ℤ
  one_le_page : 1 ≤ page
  one_le_pageSize : 1 ≤ pageSize
  pageSize_le : pageSize ≤ maxPageSize

namespace PageRequest

/-- `PageRequest(page, page_size)`. -/
def create (page : ℤ := 1) (pageSize : ℤ := 20) : Except PyException PageRequest :=
  if hpage : page < 1 then .error (valueError "page must be >= 1")
  else if hsize : pageSize < 1 then .error (valueError "page_size must be >= 1")
  else if hmax : pageSize > maxPageSize then
    .ok ⟨page, maxPageSize, not_lt.mp hpage, by decide, le_rfl⟩
  else .ok ⟨page, pageSize, not_lt.mp hpage, not_lt.mp hsize, not_lt.mp hmax⟩

def offset (request : PageRequest) : ℤ := (request.page - 1) * request.pageSize

/-- The request for the page after. -/
def next (request : PageRequest) : PageRequest :=
  { request with page := request.page + 1, one_le_page := by have := request.one_le_page; omega }

end PageRequest

structure Page (α : Type*) where
  items : List α
  total : ℤ
  page : ℤ
  pageSize : ℤ

variable {α : Type*}

namespace Page

def hasNext (page : Page α) : Bool := page.page * page.pageSize < page.total

def hasPrevious (page : Page α) : Bool := page.page > 1

end Page

/-- `items[start:stop]`. -/
def sliceOf (items : List α) (start stop : ℤ) : List α :=
  (items.take (sliceIndex items.length stop)).drop (sliceIndex items.length start)

def paginate (items : List α) (request : PageRequest) : Page α :=
  let start := request.offset
  let stop := start + request.pageSize
  { items := sliceOf items start stop, total := items.length, page := request.page
    pageSize := request.pageSize }

/-! ### Requests -/

namespace PageRequest

variable (request : PageRequest)

lemma offset_nonneg : 0 ≤ request.offset :=
  mul_nonneg (by have := request.one_le_page; omega) (by have := request.one_le_pageSize; omega)

lemma offset_next : request.next.offset = request.offset + request.pageSize := by
  show (request.page + 1 - 1) * request.pageSize = (request.page - 1) * request.pageSize + request.pageSize
  ring

/-- A request for a page that exists is let through, its size clamped. -/
lemma create_eq_ok {page pageSize : ℤ} (hpage : 1 ≤ page) (hsize : 1 ≤ pageSize) :
    ∃ request, create page pageSize = .ok request ∧ request.page = page ∧
      request.pageSize = min pageSize maxPageSize := by
  unfold create
  rw [dif_neg (not_lt.mpr hpage), dif_neg (not_lt.mpr hsize)]
  split
  · rename_i hmax
    exact ⟨_, rfl, rfl, (min_eq_right (le_of_lt hmax)).symm⟩
  · rename_i hmax
    exact ⟨_, rfl, rfl, (min_eq_left (not_lt.mp hmax)).symm⟩

/-- Asking for the page after, with the same size. -/
lemma create_succ {page pageSize : ℤ} {request : PageRequest} (h : create page pageSize = .ok request) :
    create (page + 1) pageSize = .ok request.next := by
  unfold create at h ⊢
  split at h
  · cases h
  · rename_i hpage
    rw [dif_neg (by omega)]
    split at h
    · cases h
    · rename_i hsize
      rw [dif_neg hsize]
      split at h
      · rename_i hmax
        cases h
        rw [dif_pos hmax]
        rfl
      · rename_i hmax
        cases h
        rw [dif_neg hmax]
        rfl

end PageRequest

/-! ### One page -/

section OnePage

variable (items : List α) (request : PageRequest)

lemma items_paginate :
    (paginate items request).items = (items.drop request.offset.toNat).take request.pageSize.toNat := by
  have hoffset := request.offset_nonneg
  have hsize := request.one_le_pageSize
  have hstop : (request.offset + request.pageSize).toNat = request.offset.toNat + request.pageSize.toNat :=
    Int.toNat_add hoffset (by omega)
  show sliceOf items request.offset (request.offset + request.pageSize) = _
  rw [sliceOf, sliceIndex, sliceIndex, if_neg (by omega), if_neg (by omega), hstop, ← List.take_eq_take_min,
    List.drop_take]
  rcases le_total request.offset.toNat items.length with hle | hle
  · rw [min_eq_left hle, Nat.add_sub_cancel_left]
  · rw [min_eq_right hle, List.drop_length, List.drop_eq_nil_of_le hle, List.take_nil, List.take_nil]

lemma hasNext_paginate : (paginate items request).hasNext = true ↔ request.next.offset < items.length := by
  rw [Page.hasNext, decide_eq_true_iff]
  show request.page * request.pageSize < items.length ↔ (request.page + 1 - 1) * request.pageSize < _
  rw [add_sub_cancel_right]

/-- **There is a next page iff it has items.** -/
theorem hasNext_iff :
    (paginate items request).hasNext = true ↔ (paginate items request.next).items ≠ [] := by
  have hoffset := request.next.offset_nonneg
  have hsize := request.next.one_le_pageSize
  rw [hasNext_paginate, items_paginate, Ne, List.take_eq_nil_iff, List.drop_eq_nil_iff]
  omega

end OnePage

/-! ### One page after the other -/

/-- The pages from a request on, as long as there is a next one. -/
def visit (items : List α) (request : PageRequest) : List (Page α) :=
  let page := paginate items request
  if h : page.hasNext then page :: visit items request.next else [page]
termination_by (items.length - request.offset).toNat
decreasing_by
  have hnext := (hasNext_paginate items request).mp h
  have hoffset := request.offset_next
  have hsize := request.one_le_pageSize
  omega

/-- The pages from a request on hold the items from its offset on. -/
theorem flatMap_visit (items : List α) (request : PageRequest) :
    (visit items request).flatMap (·.items) = items.drop request.offset.toNat := by
  induction request using visit.induct items with
  | case1 request page h ih =>
    have hnext : request.next.offset.toNat = request.offset.toNat + request.pageSize.toNat := by
      have hsize := request.one_le_pageSize
      rw [request.offset_next, Int.toNat_add request.offset_nonneg (by omega)]
    rw [visit, dif_pos h, List.flatMap_cons, ih, items_paginate, hnext, ← List.drop_drop,
      List.take_append_drop]
  | case2 request page h =>
    have hlast : items.length ≤ request.next.offset := not_lt.mp fun hlt => h ((hasNext_paginate _ _).mpr hlt)
    have hoffset := request.offset_next
    rw [visit, dif_neg h, List.flatMap_cons, List.flatMap_nil, List.append_nil, items_paginate]
    refine List.take_of_length_le ?_
    rw [List.length_drop]
    omega

/-- **Pagination loses nothing**: from page one on, the pages hold the sequence, and there is a page after one
iff that has items. -/
theorem pagination_lossless (items : List α) (pageSize : ℤ) (hsize : 1 ≤ pageSize) :
    (∃ first, PageRequest.create 1 pageSize = .ok first ∧ first.pageSize = min pageSize maxPageSize ∧
      (visit items first).flatMap (·.items) = items) ∧
    ∀ page, 1 ≤ page → ∃ request following, PageRequest.create page pageSize = .ok request ∧
      PageRequest.create (page + 1) pageSize = .ok following ∧
      ((paginate items request).hasNext = true ↔ (paginate items following).items ≠ []) := by
  constructor
  · obtain ⟨first, hfirst, hpage, hclamped⟩ := PageRequest.create_eq_ok le_rfl hsize
    refine ⟨first, hfirst, hclamped, ?_⟩
    have hoffset : first.offset = 0 := by rw [PageRequest.offset, hpage, sub_self, zero_mul]
    rw [flatMap_visit, hoffset]
    rfl
  · intro page hpage
    obtain ⟨request, hrequest, -, -⟩ := PageRequest.create_eq_ok hpage hsize
    exact ⟨request, request.next, hrequest, PageRequest.create_succ hrequest, hasNext_iff items request⟩

/-- Three items, two to a page. -/
theorem pagination_lossless_three :
    (1 : ℤ) ≤ 2 ∧ ∃ first, PageRequest.create 1 2 = .ok first ∧
      (visit ["a", "b", "c"] first).flatMap (·.items) = ["a", "b", "c"] := by
  obtain ⟨⟨first, hfirst, -, hvisit⟩, -⟩ := pagination_lossless ["a", "b", "c"] 2 (by decide)
  exact ⟨by decide, first, hfirst, hvisit⟩

end Tmis.Platform.Pagination
