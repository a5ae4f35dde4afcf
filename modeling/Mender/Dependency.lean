import Mender.Requirement

/-!
# Dependencies

Some fixes call functions of packages that the project may not need yet. A `Dependency` is such a package
with what a report tells about it.
-/

namespace Mender

structure License where
  name : String
  url : String
  deriving DecidableEq, Repr, Inhabited

structure Dependency where
  requirement : Requirement
  about : String
  license : License
  sourceLink : String
  packageLink : String
  deriving DecidableEq, Repr, Inhabited

namespace Dependency

def description (d : Dependency) : String :=
  d.about ++ "\n\nLicense: [" ++ d.license.name ++ "](" ++ d.license.url ++ ") ✅ [Open Source](" ++
    d.sourceLink ++ ") ✅ [More facts](" ++ d.packageLink ++ ")\n"

/-- Are two dependencies the same? Their requirements may be written differently. -/
def agrees (d e : Dependency) : Bool :=
  d.requirement.agrees e.requirement && d.about == e.about && d.license == e.license &&
    d.sourceLink == e.sourceLink && d.packageLink == e.packageLink

def insert (ds : List Dependency) (d : Dependency) : List Dependency := if ds.any (·.agrees d) then ds else ds ++ [d]

def defusedXml : Dependency where
  requirement := { name := "defusedxml", versions := ["~=0.7.1"] }
  about := "This package is [recommended by the Python community](https://docs.python.org/3/library/xml.html#the-defusedxml-package) to protect against XML vulnerabilities."
  license := ⟨"PSF-2.0", "https://opensource.org/license/python-2-0/"⟩
  sourceLink := "https://github.com/tiran/defusedxml"
  packageLink := "https://pypi.org/project/defusedxml/"

def security : Dependency where
  requirement := { name := "security", versions := ["~=1.2.0"] }
  about := "This library holds security tools for protecting Python API calls."
  license := ⟨"MIT", "https://opensource.org/license/MIT/"⟩
  sourceLink := "https://github.com/pixee/python-security"
  packageLink := "https://pypi.org/project/security/"

end Dependency

end Mender
