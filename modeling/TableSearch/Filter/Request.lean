/-
Search parameters from the parameters of a request.
-/
import TableSearch.Filter.Key

namespace TableSearch
namespace SearchParams

/-- The prefix of the request parameters that are filters. -/
def requestPrefix : String := "search_"

/-- The value of a parameter that may be given more than once. -/
def requestValue? : List String → Option Value
  | [] => none
  | [s] => some (.text s)
  | values => some (.list (values.map .text))

/-- Take one request parameter: without the start of its name, if it has a value. -/
def takeRequest (start : String) (params : SearchParams) (p : String × List String) :
    SearchParams :=
  match Text.dropStart? start p.1, requestValue? p.2 with
  | some key, some value => Dict.set params key value
  | _, _ => params

/-- The parameters whose names begin with `start`, without it.  Later ones replace
earlier ones of the same name. -/
def ofRequest (request : List (String × List String)) (start : String) : SearchParams :=
  request.foldl (takeRequest start) Keyed.empty

end SearchParams
end TableSearch
