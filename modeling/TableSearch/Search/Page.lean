/-
Pages of a result.
-/
import TableSearch.QueryError
import TableSearch.Search.SortOrder

namespace TableSearch

def largestLimit : Nat := 500

def defaultPage : UInt32 := 1

def defaultLimit : UInt32 := 50

/-- A page number from one on, a number of rows, and an order. -/
structure PageRequest where
  page : UInt32
  limit : UInt32
  sort : SortOrder
  page_pos : 1 ≤ page.toNat
  limit_pos : 1 ≤ limit.toNat
  limit_le : limit.toNat ≤ largestLimit

namespace PageRequest

def make (page limit : UInt32) : Except QueryError PageRequest :=
  if hp : 1 ≤ page.toNat then
    if hl : 1 ≤ limit.toNat ∧ limit.toNat ≤ largestLimit then
      .ok { page, limit, sort := .unsorted, page_pos := hp, limit_pos := hl.1, limit_le := hl.2 }
    else .error (.invalidPage (.limit largestLimit))
  else .error (.invalidPage .page)

def standard : PageRequest where
  page := defaultPage
  limit := defaultLimit
  sort := .unsorted
  page_pos := by decide
  limit_pos := by decide
  limit_le := by decide

def withSort (r : PageRequest) (s : SortOrder) : PageRequest :=
  { r with sort := s }

def offset (r : PageRequest) : Nat :=
  (r.page.toNat - 1) * r.limit.toNat

/-- The number of all rows, when a fetched page tells it: a page that is not full is the
last one, unless it is empty and not the first. -/
def knownTotal? (r : PageRequest) (fetched : Nat) : Option Nat :=
  if r.offset = 0 then
    if fetched < r.limit.toNat then some fetched else none
  else if fetched ≠ 0 ∧ fetched < r.limit.toNat then some (r.offset + fetched)
  else none

theorem offset_lt (r : PageRequest) : r.offset < 2 ^ 41 := by
  have hp : r.page.toNat < 2 ^ 32 := r.page.toNat_lt
  have hl : r.limit.toNat ≤ 500 := r.limit_le
  have h : r.offset ≤ (2 ^ 32 - 1) * 500 :=
    Nat.mul_le_mul (by omega) hl
  omega

end PageRequest

/-- One page of a result, and how many rows and pages there are. -/
structure Page (α : Type) where
  content : List α
  page : Nat
  limit : Nat
  total : Nat
  totalPages : Nat

namespace Page

variable {α β : Type}

def make (content : List α) (r : PageRequest) (total : Nat) : Page α where
  content
  page := r.page.toNat
  limit := r.limit.toNat
  total
  totalPages := (total + r.limit.toNat - 1) / r.limit.toNat

def hasNext (p : Page α) : Bool :=
  p.page < p.totalPages

def hasPrevious (p : Page α) : Bool :=
  1 < p.page

def isEmpty (p : Page α) : Bool :=
  p.content.isEmpty

def map (f : α → β) (p : Page α) : Page β :=
  { p with content := p.content.map f }

def toNode (item : α → Json.Node) (p : Page α) : Json.Node :=
  .object [("content", .array (p.content.map item)), ("page", .int p.page),
    ("limit", .int p.limit), ("total", .int p.total), ("total_pages", .int p.totalPages)]

end Page
end TableSearch
