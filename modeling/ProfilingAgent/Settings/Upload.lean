import ProfilingAgent.Text.Blank

set_option autoImplicit false

namespace ProfilingAgent

inductive Compression
  | gzip
  | uncompressed
deriving DecidableEq, Inhabited, Repr

namespace Compression

def name : Compression → String
  | gzip => "gzip"
  | uncompressed => "none"

def isCompressed : Compression → Bool
  | gzip => true
  | uncompressed => false

def ofName? (s : String) : Option Compression :=
  let word := Text.lower (Text.trim s)
  if word = "gzip" ∨ word = "gz" ∨ word = "" then some gzip
  else if word = "none" ∨ word = "off" ∨ word = "identity" then some uncompressed
  else none

def label : Compression → String
  | gzip => "Gzip"
  | uncompressed => "None"

end Compression

inductive ReportEncoding
  | pprof
  | collapsed
deriving DecidableEq, Inhabited, Repr

namespace ReportEncoding

def name : ReportEncoding → String
  | pprof => "pprof"
  | collapsed => "collapsed"

def ofName? (s : String) : Option ReportEncoding :=
  let word := Text.lower (Text.trim s)
  if word = "pprof" ∨ word = "" then some pprof
  else if word = "collapsed" ∨ word = "folded" then some collapsed
  else none

def label : ReportEncoding → String
  | pprof => "Pprof"
  | collapsed => "Collapsed"

end ReportEncoding
end ProfilingAgent
