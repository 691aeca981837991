import WireCodec.Json.Equality

/-!
# Responses

A response of the server: whether the call succeeded, its data, and what else the server said.  Optional
members that are absent and those that are null mean the same.  `Response.ofMembers?` takes a response from
the members of an object, and `Response.toMembers` writes it without the members that are absent.
-/

namespace WireCodec

/-- A response.  Data that are absent are null. -/
structure Response where
  data : Json
  success : Bool
  message : Option Text
  error : Option Text
  code : Option Text
  details : Option Members

namespace Response

/-- A response that says nothing: a failure without data. -/
def blank : Response := ⟨.null, false, none, none, none, none⟩

/-- A successful response that is only a message. -/
def plain (message : Text) : Response := ⟨.null, true, some message, none, none, none⟩

/-- A response without success, or with an error, is a failure. -/
def failed (r : Response) : Bool := !r.success || r.error.isSome

/-- The response that the members of an object say, unless one of them is of the wrong kind. -/
def ofMembers? (m : Members) : Option Response := do
  let success ← Members.optional? Json.toBool? (Text.ofString "success") m
  let message ← Members.optional? Json.toText? (Text.ofString "message") m
  let error ← Members.optional? Json.toText? (Text.ofString "error") m
  let code ← Members.optional? Json.toText? (Text.ofString "code") m
  let details ← Members.optional? Json.toMembers? (Text.ofString "details") m
  some ⟨(Members.get? (Text.ofString "data") m).getD .null, success.getD false, message, error, code, details⟩

/-- The response that a value says, unless it is no object or has a member of the wrong kind. -/
def ofJson? : Json → Option Response
  | .obj m => ofMembers? m
  | _ => none

/-- A member for a text that is there. -/
def textMember (name : String) : Option Text → Members
  | some t => [(Text.ofString name, .str t)]
  | none => []

/-- The member for data that are there. -/
def dataMember : Json → Members
  | .null => []
  | v => [(Text.ofString "data", v)]

/-- The member for details that are there and not empty. -/
def detailsMember : Option Members → Members
  | none | some [] => []
  | some m => [(Text.ofString "details", .obj m)]

/-- The members of the object that stands for a response; what is absent or without content is left out. -/
def toMembers (r : Response) : Members :=
  (Text.ofString "success", .bool r.success) :: dataMember r.data ++ textMember "message" r.message ++
    textMember "error" r.error ++ textMember "code" r.code ++ detailsMember r.details

/-- The object that stands for a response. -/
def toJson (r : Response) : Json := .obj r.toMembers

/-- Whether optional details mean the same; absent details are not empty ones. -/
def sameDetails : Option Members → Option Members → Bool
  | none, none => true
  | some a, some b => (Json.obj a).same (.obj b)
  | _, _ => false

/-- Whether two responses mean the same, part by part. -/
def same (a b : Response) : Bool :=
  a.data.same b.data && a.success == b.success && a.message == b.message && a.error == b.error &&
    a.code == b.code && sameDetails a.details b.details

end Response

end WireCodec
