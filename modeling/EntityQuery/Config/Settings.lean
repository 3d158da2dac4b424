import EntityQuery.Config.Address
import EntityQuery.Error
import EntityQuery.Text.Blank
/-!
# Settings

The settings of a listing service: how large pages may be, how much is logged and
where the service listens. Every setting has a default.
-/

namespace EntityQuery

/-- The page size of a request that names none, and the greatest one. -/
structure PageLimits where
  defaultSize : Int64 := 20
  maxSize : Int64 := 100
  deriving DecidableEq

structure Settings where
  limits : PageLimits := {}
  /-- What is logged when the environment does not say. -/
  level : String := "info"
  address : SocketAddress := .v4 [127, 0, 0, 1] 3000
  deriving DecidableEq

namespace Settings

/-- Accepts settings in range; the first one that is not is reported. -/
def validate (s : Settings) : Except ConfigError Unit :=
  if s.limits.defaultSize.toInt < 1 then
    .error (.invalidValue "pagination.default_page_size" "must be at least 1")
  else if s.limits.maxSize.toInt < s.limits.defaultSize.toInt then
    .error (.invalidValue "pagination.max_page_size"
      ("must be at least default_page_size (" ++ toString s.limits.defaultSize.toInt ++ ")"))
  else if (Text.trim s.level.toList).isEmpty then
    .error (.invalidValue "logging.level" "must not be empty")
  else .ok ()

end Settings

end EntityQuery
