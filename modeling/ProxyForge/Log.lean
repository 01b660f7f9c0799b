/-!
# Log records

What a run tells about itself: a level and a text.
-/

namespace ProxyForge

/-- How much a record matters. -/
inductive LogLevel where
  | trace
  | debug
  | warn
  deriving DecidableEq, Repr

/-- One line of a log. -/
structure LogRecord where
  level : LogLevel
  text : String
  deriving DecidableEq, Repr

end ProxyForge
