import IdealServer.Scanf
import IdealServer.SortedMap
import IdealServer.StringPiece
import Mathlib.Data.List.DropRight

/-! `HttpRequest`: what a request line and the header lines are taken apart into. -/
namespace IdealServer

/-- `std::map<std::string, std::string>`, in the order of the unsigned characters. -/
abbrev HeaderMap := SortedMap unsigned Bytes

inductive HttpRequest.Method
  | kInvalid
  | kGet
  | kPost
  | kHead
  | kPut
  | kDelete
deriving DecidableEq, Repr

inductive HttpRequest.Version
  | kUnknown
  | kHttp10
  | kHttp11
deriving DecidableEq, Repr

structure HttpRequest where
  method : HttpRequest.Method
  version : HttpRequest.Version
  path : Bytes
  query : Bytes
  receiveTime : ℤ
  headers : HeaderMap

namespace HttpRequest

def new : HttpRequest := ⟨.kInvalid, .kUnknown, [], [], 0, .empty⟩

/-- The comparisons in `setMethod`. -/
def Method.ofString (s : Bytes) : Method :=
  if s = ascii "GET" then .kGet
  else if s = ascii "POST" then .kPost
  else if s = ascii "HEAD" then .kHead
  else if s = ascii "PUT" then .kPut
  else if s = ascii "DELETE" then .kDelete
  else .kInvalid

/-- The method is set once. -/
def setMethod (r : HttpRequest) (s : Bytes) : Except Fault (Bool × HttpRequest) :=
  if r.method = .kInvalid then
    let r := { r with method := Method.ofString s }
    .ok (decide (r.method ≠ .kInvalid), r)
  else .error .assertFailed

def Method.name : Method → Bytes
  | .kGet => ascii "GET"
  | .kPost => ascii "POST"
  | .kHead => ascii "HEAD"
  | .kPut => ascii "PUT"
  | .kDelete => ascii "DELETE"
  | .kInvalid => ascii "UNKNOWN"

def methodToString (r : HttpRequest) : Bytes := r.method.name

theorem Method.ofString_name {m : Method} (h : m ≠ .kInvalid) : ofString m.name = m := by
  cases m with
  | kInvalid => exact absurd rfl h
  | kGet => decide
  | kPost => decide
  | kHead => decide
  | kPut => decide
  | kDelete => decide

theorem Method.name_ofString {s : Bytes} (h : ofString s ≠ .kInvalid) : (ofString s).name = s := by
  unfold ofString at h ⊢
  split_ifs at h ⊢ with h1 h2 h3 h4 h5
  · exact h1.symm
  · exact h2.symm
  · exact h3.symm
  · exact h4.symm
  · exact h5.symm
  · exact absurd rfl h

def setPath (r : HttpRequest) (path : Bytes) : HttpRequest := { r with path := path }
def setQuery (r : HttpRequest) (query : Bytes) : HttpRequest := { r with query := query }
def setVersion (r : HttpRequest) (v : Version) : HttpRequest := { r with version := v }
def setReceiveTime (r : HttpRequest) (t : ℤ) : HttpRequest := { r with receiveTime := t }

/-- The value of a header, without the white space around it. -/
def headerValue (value : Bytes) : Bytes := (value.dropWhile Scanf.isSpace).rdropWhile Scanf.isSpace

/-- `addHeader` with the position of the colon. -/
def addHeader (r : HttpRequest) (line : Bytes) (colon : ℕ) : HttpRequest :=
  { r with headers := r.headers.assign (line.take colon) (headerValue (line.drop (colon+1))) }

def getHeader (r : HttpRequest) (field : Bytes) : Bytes := (r.headers.find field).getD []

/-- Of several headers of one name the last one counts, and the others stay as they are. -/
theorem getHeader_addHeader (r : HttpRequest) (line : Bytes) (colon : ℕ) (field : Bytes) :
    (r.addHeader line colon).getHeader field =
      if field = line.take colon then headerValue (line.drop (colon+1)) else r.getHeader field := by
  split
  case isTrue h =>
    rw [getHeader, addHeader, h, SortedMap.find_assign]
    rfl
  case isFalse h =>
    have hkey : unsigned field ≠ unsigned (line.take colon) := fun he => h (unsigned_inj.mp he)
    rw [getHeader, addHeader, SortedMap.find_assign_of_ne _ hkey]
    rfl

/-- Everything but the time at which the request line has come. -/
structure SameContent (r q : HttpRequest) : Prop where
  method : r.method = q.method
  version : r.version = q.version
  path : r.path = q.path
  query : r.query = q.query
  headers : r.headers = q.headers

end HttpRequest

end IdealServer
