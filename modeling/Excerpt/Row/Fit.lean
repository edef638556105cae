import Excerpt.Row

/-!
Shortening a row to a width. Segments are kept from the left as long as they fit beside the
ellipsis; the first one that does not is cut, unless it is a caret run, which is left out whole.
-/

namespace Excerpt.Row

/-- The segments, and a part of one, that fit in `limit` cells when `col` of them are taken. -/
def takeFitting (w : CellWidth) (limit : Int) : Int → List Segment → List Segment
  | _, [] => []
  | col, seg :: rest =>
    if col + seg.width w ≤ limit then seg :: takeFitting w limit (col + seg.width w) rest
    else if seg.caret then []
    else Segment.run (cutToWidth w seg.text (limit - col)) seg.style

/-- The row in `limit` cells, ending in the ellipsis if it had to be shortened. -/
def fit (w : CellWidth) (limit : Int) (ellipsis : Text) (row : Row) : Row :=
  if row.width w ≤ limit then row
  else
    { row with
      segments :=
        takeFitting w (max (limit - ellipsis.width w) 0) 0 row.segments ++ Segment.run ellipsis }

end Excerpt.Row
