import EntityQuery.Page
/-!
# Pagination of a listing

What a listing tells about the pages around the one it returns. A page size of
zero counts as one.
-/

namespace EntityQuery

/-- Where a page stands among all pages. -/
structure Pagination where
  page : UInt64
  size : UInt64
  total : UInt64
  totalPages : UInt64
  hasNext : Bool
  hasPrev : Bool
  deriving DecidableEq, Repr

namespace Pagination

/-- How many parts of a positive size cover a whole, the last part perhaps not full. -/
def divCeil (whole size : UInt64) : UInt64 :=
  if whole % size = 0 then whole / size else whole / size + 1

/-- The place of a page of the given size in a listing of the given total. -/
def of (page size total : UInt64) : Pagination :=
  let size := max size 1
  { page
    size
    total
    totalPages := divCeil total size
    hasNext := Saturating.mul (Saturating.add page 1) size < total
    hasPrev := 0 < page }

def toJson (p : Pagination) : Json :=
  .obj [("page", .int p.page.toNat), ("size", .int p.size.toNat), ("total", .int p.total.toNat),
    ("total_pages", .int p.totalPages.toNat), ("has_next", .bool p.hasNext),
    ("has_prev", .bool p.hasPrev)]

/-- The place of a page that a store returned. -/
def ofPage (p : Page α) : Pagination :=
  of p.index p.size p.total

end Pagination

/-- A page as it is sent: its entities and its place. -/
def Page.toJson (p : Page Json) : Json :=
  .obj [("data", .arr p.content), ("pagination", (Pagination.ofPage p).toJson)]

end EntityQuery
