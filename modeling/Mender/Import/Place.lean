import Mender.Files

/-!
# Where imports belong

Imports are grouped into sections. What section a module belongs to follows from its name and from the
files of the project: names that begin with a dot are local, `__future__` and the standard library are
known by name, modules found below the source directory are the project's own, and all others come
from third parties.
-/

namespace Mender.Import

/-- The sections of imports, in their order. -/
inductive Section where
  | future | stdlib | thirdParty | firstParty | localFolder
  deriving DecidableEq, Repr, Inhabited

namespace Section

variable (fs : Files) (name : String)

def inOrder : List Section := [.future, .stdlib, .thirdParty, .firstParty, .localFolder]

def label : Section → String
  | .future => "FUTURE"
  | .stdlib => "STDLIB"
  | .thirdParty => "THIRDPARTY"
  | .firstParty => "FIRSTPARTY"
  | .localFolder => "LOCALFOLDER"

def standardModules : List String :=
  ["_ast", "_dummy_thread", "_thread", "_tkinter", "abc", "aifc", "argparse", "array", "ast", "asynchat", "asyncio",
    "asyncore", "atexit", "audioop", "base64", "bdb", "binascii", "binhex", "bisect", "builtins", "bz2", "cProfile",
    "calendar", "cgi", "cgitb", "chunk", "cmath", "cmd", "code", "codecs", "codeop", "collections", "colorsys",
    "compileall", "concurrent", "configparser", "contextlib", "contextvars", "copy", "copyreg", "crypt", "csv",
    "ctypes", "curses", "dataclasses", "datetime", "dbm", "decimal", "difflib", "dis", "distutils", "doctest",
    "dummy_threading", "email", "encodings", "ensurepip", "enum", "errno", "faulthandler", "fcntl", "filecmp",
    "fileinput", "fnmatch", "formatter", "fpectl", "fractions", "ftplib", "functools", "gc", "getopt", "getpass",
    "gettext", "glob", "graphlib", "grp", "gzip", "hashlib", "heapq", "hmac", "html", "http", "idlelib", "imaplib",
    "imghdr", "imp", "importlib", "inspect", "io", "ipaddress", "itertools", "json", "keyword", "lib2to3", "linecache",
    "locale", "logging", "lzma", "macpath", "mailbox", "mailcap", "marshal", "math", "mimetypes", "mmap",
    "modulefinder", "msilib", "msvcrt", "multiprocessing", "netrc", "nis", "nntplib", "ntpath", "numbers", "operator",
    "optparse", "os", "ossaudiodev", "parser", "pathlib", "pdb", "pickle", "pickletools", "pipes", "pkgutil",
    "platform", "plistlib", "poplib", "posix", "posixpath", "pprint", "profile", "pstats", "pty", "pwd", "py_compile",
    "pyclbr", "pydoc", "queue", "quopri", "random", "re", "readline", "reprlib", "resource", "rlcompleter", "runpy",
    "sched", "secrets", "select", "selectors", "shelve", "shlex", "shutil", "signal", "site", "sitecustomize", "smtpd",
    "smtplib", "sndhdr", "socket", "socketserver", "spwd", "sqlite3", "sre", "sre_compile", "sre_constants",
    "sre_parse", "ssl", "stat", "statistics", "string", "stringprep", "struct", "subprocess", "sunau", "symbol",
    "symtable", "sys", "sysconfig", "syslog", "tabnanny", "tarfile", "telnetlib", "tempfile", "termios", "test",
    "textwrap", "threading", "time", "timeit", "tkinter", "token", "tokenize", "tomllib", "trace", "traceback",
    "tracemalloc", "tty", "turtle", "turtledemo", "types", "typing", "unicodedata", "unittest", "urllib",
    "usercustomize", "uu", "uuid", "venv", "warnings", "wave", "weakref", "webbrowser", "winreg", "winsound", "wsgiref",
    "xdrlib", "xml", "xmlrpc", "zipapp", "zipfile", "zipimport", "zlib", "zoneinfo"]

def beginnings : List String :=
  let ps := Text.pieces '.' name
  (List.range ps.length).map fun i => String.intercalate "." (ps.take (ps.length - i))

def known? : Option Section :=
  if name.startsWith "." then some .localFolder
  else (beginnings name).findSome? fun b =>
    if b == "__future__" then some .future
    else if standardModules.contains b then some .stdlib
    else none

def sourceEndings : List String := [".py", ".pyi", ".pyx", ".pxd"]

def openPackageLines : List String :=
  ["__import__('pkg_resources').declare_namespace(__name__)", "__import__(\"pkg_resources\").declare_namespace(__name__)",
    "__path__ = __import__('pkgutil').extend_path(__path__, __name__)",
    "__path__ = __import__(\"pkgutil\").extend_path(__path__, __name__)"]

/-- Does a file declare its package open? Only its beginning is looked at. -/
def saysOpen (c : Content) : Bool :=
  let text := String.ofList ((c.toBytes.extract 0 4096).toList.map fun b => Char.ofNat b.toNat)
  openPackageLines.any (Text.holds · text)

/-- Is the directory a package that may be spread over several directories? -/
def isOpenPackage (dir : String) : Bool :=
  if ! fs.isDir dir then false
  else
    let init := Path.join dir "__init__.py"
    if fs.exists? init then ((fs.get? init).map saysOpen).getD false
    else ! (fs.children dir).any fun n =>
      sourceEndings.contains (Path.nameSuffix n) || ["setup.cfg", "pyproject.toml"].contains (n.map Char.toLower)

/-- Is a module with the given name parts found in a source directory? `top` tells whether the
directory is the project's own. -/
def isFound (fs : Files) (top : Bool) (dir : String) : List String → Bool
  | [] => false
  | root :: rest =>
    let inside := Path.join dir root
    let path := if top && ! fs.isDir inside && Path.name dir == root then dir else inside
    if ! rest.isEmpty && isOpenPackage fs path then isFound fs false path rest
    else
      fs.exists? (Path.withSuffix path ".py") || fs.isDir path || (root == Path.name dir && fs.isDir dir)

def ofModule (source name : String) : Section :=
  match known? name with
  | some s => s
  | none => if isFound fs true source (Text.pieces '.' name) then .firstParty else .thirdParty

end Section

end Mender.Import
