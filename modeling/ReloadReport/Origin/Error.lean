import ReloadReport.Text.Quoted

/-!
# Errors about origins

What can be wrong with the origin that the build tool states for a unit, and how it is reported.
-/

namespace ReloadReport

inductive OriginError where
  | unknownShape (shape : String)
  | missingBaseMarker (segments : List String)
  | invalidUri (id reason : String)
  | noLocalPath (uri : String)
  deriving DecidableEq, Repr

def OriginError.message : OriginError → String
  | .unknownShape shape => "Unrecognized artifact origin shape: " ++ shape
  | .missingBaseMarker segments =>
      "Virtual file segments " ++ Text.quotedList segments ++ " do not start with a base marker"
  | .invalidUri id reason => "Invalid virtual file id '" ++ id ++ "': " ++ reason
  | .noLocalPath uri => "File URI has no local path: " ++ uri

end ReloadReport
