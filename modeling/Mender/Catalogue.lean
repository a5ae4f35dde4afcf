import Mender.Codemod.Django
import Mender.Codemod.Flask
import Mender.Codemod.Idiom
import Mender.Codemod.ImportedCall
import Mender.Codemod.Imports
import Mender.Codemod.Lock
import Mender.Codemod.MutableDefault
import Mender.Codemod.ResourceLeak
import Mender.Codemod.Sql
import Mender.Codemod.Target
import Mender.Codemod.UrlSandbox
import Mender.Codemod.Walrus
import Mender.Registry

/-!
# The catalogue

All codemods, each with what reports and documentation say about it. `all` lists them in the order in which
they run, and `registry` finds them.
-/

namespace Mender.Catalogue

open Codemod

def links (urls : List String) : List Json := urls.map fun u => .obj [("url", .str u), ("description", .str u)]

def cheatSheet (page : String) : String := "https://cheatsheetseries.owasp.org/cheatsheets/" ++ page

def owasp (page : String) : String := "https://owasp.org/www-community/" ++ page

def manual (page : String) : String := "https://docs.python.org/3/" ++ page

def core (maker : String) : String := "core_codemods." ++ maker

def onParsers : List Json := links ["https://lxml.de/apidoc/lxml.etree.html#lxml.etree.XMLParser",
    owasp "vulnerabilities/XML_External_Entity_(XXE)_Processing",
    cheatSheet "XML_External_Entity_Prevention_Cheat_Sheet.html"]

def onProtocols : List Json := links [manual "library/ssl.html#security-considerations",
    "https://datatracker.ietf.org/doc/rfc8996/",
    "https://www.digicert.com/blog/depreciating-tls-1-0-and-1-1"]

def addTimeouts : Codemod where
  name := "add-requests-timeouts"
  summary := "Add timeout to `requests` calls"
  description := "Add timeout to `requests` call"
  guidance := .cursoryReview
  references := links ["https://docs.python-requests.org/en/master/user/quickstart/#timeouts"]
  byFindings := true
  work := Task.addTimeouts

def disableDebug : Codemod where
  name := "django-debug-flag-on"
  summary := "Disable Django Debug Mode"
  description := "Flip `Django` debug flag to off."
  guidance := .cursoryReview
  references := links ["https://owasp.org/www-project-top-ten/2017/A3_2017-Sensitive_Data_Exposure",
    "https://docs.djangoproject.com/en/4.2/ref/settings/#std-setting-DEBUG"]
  byFindings := true
  work := Task.disableDebug

def secureSessionCookies : Codemod where
  name := "django-session-cookie-secure-off"
  summary := "Secure Setting for Django `SESSION_COOKIE_SECURE` flag"
  description := "Sets Django's `SESSION_COOKIE_SECURE` flag if off or missing."
  guidance := .cursoryReview
  references := links [owasp "controls/SecureCookieAttribute",
    "https://docs.djangoproject.com/en/4.2/ref/settings/#session-cookie-secure"]
  byFindings := true
  work := Task.secureSessionCookies

def enableAutoescape : Codemod where
  name := "enable-jinja2-autoescape"
  summary := "Enable Jinja2 Autoescape"
  description := "Sets the `autoescape` parameter in jinja2.Environment to `True`."
  references := links [owasp "attacks/xss/", "https://jinja.palletsprojects.com/en/3.1.x/api/#autoescaping"]
  byFindings := true
  work := Task.enableAutoescape

def splitAbstractProperties : Codemod where
  name := "fix-deprecated-abstractproperty"
  summary := "Replace deprecated abstractproperty"
  description := "Replace deprecated abstractproperty with property and abstractmethod"
  references := links [manual "library/abc.html#abc.abstractproperty"]
  work := Task.splitAbstractProperties

def renewDefaults : Codemod where
  name := "fix-mutable-params"
  summary := "Replace Mutable Default Parameters"
  description := "Replace mutable parameter with `None`."
  work := Task.renewDefaults

def useSafeLoader : Codemod where
  name := "harden-pyyaml"
  summary := "Use SafeLoader in `yaml.load()` Calls"
  description := "Ensures all calls to yaml.load use `SafeLoader`."
  references := links [owasp "vulnerabilities/Deserialization_of_untrusted_data"]
  byFindings := true
  work := Task.useSafeLoader

def useSafeType : Codemod where
  name := "harden-ruamel"
  summary := "Use `typ='safe'` in ruamel.yaml() Calls"
  description := "Ensures all unsafe calls to ruamel.yaml.YAML use `typ='safe'`."
  references := links [owasp "vulnerabilities/Deserialization_of_untrusted_data"]
  byFindings := true
  work := Task.useSafeType

def secureConnections : Codemod where
  name := "https-connection"
  summary := "Enforce HTTPS Connection for `urllib3`"
  description := "No description."
  references := links [owasp "vulnerabilities/Insecure_Transport",
    "https://urllib3.readthedocs.io/en/stable/reference/urllib3.connectionpool.html#urllib3.HTTPConnectionPool"]
  maker := core "https_connection.HTTPSConnection"
  work := Task.secureConnections

def verifyTokens : Codemod where
  name := "jwt-decode-verify"
  summary := "Verify JWT Decode"
  description := "Enable all verifications in `jwt.decode` call."
  references := links ["https://pyjwt.readthedocs.io/en/stable/api.html",
    "https://owasp.org/www-project-web-security-testing-guide/latest/4-Web_Application_Security_Testing/06-Session_Management_Testing/10-Testing_JSON_Web_Tokens"]
  byFindings := true
  work := Task.verifyTokens

def limitLines : Codemod where
  name := "limit-readline"
  summary := "Limit readline()"
  description := "Adds a size limit argument to readline() calls."
  guidance := .cursoryReview
  references := links ["https://cwe.mitre.org/data/definitions/400.html"]
  byFindings := true
  work := Task.limitLines

def restrictParsers : Codemod where
  name := "safe-lxml-parser-defaults"
  summary := "Use Safe Defaults for `lxml` Parsers"
  description := "Replace `lxml` parser parameters with safe defaults."
  references := onParsers
  byFindings := true
  maker := core "lxml_safe_parser_defaults.LxmlSafeParserDefaults"
  work := Task.restrictParsers

def useRestrictedParser : Codemod where
  name := "safe-lxml-parsing"
  summary := "Use Safe Parsers in `lxml` Parsing Functions"
  description := "Call `lxml.etree.parse` and `lxml.etree.fromstring` with a safe parser."
  references := onParsers
  byFindings := true
  maker := core "lxml_safe_parsing.LxmlSafeParsing"
  work := Task.useRestrictedParser

def orderImports : Codemod where
  name := "order-imports"
  summary := "Order Imports"
  description := "Formats and orders imports by categories."
  changeText := "Ordered and formatted import block below this line"
  work := Task.orderImports

def guardProcesses : Codemod where
  name := "sandbox-process-creation"
  summary := "Sandbox Process Creation"
  description := "Replaces subprocess.\x7bfunc\x7d with more secure safe_command library functions."
  guidance := .cursoryReview
  references := links ["https://github.com/pixee/python-security/blob/main/src/security/safe_command/api.py",
    cheatSheet "OS_Command_Injection_Defense_Cheat_Sheet.html"]
  byFindings := true
  addsDependency := true
  maker := core "process_creation_sandbox.ProcessSandbox"
  work := Task.guardProcesses

def dropSettledFeatures : Codemod where
  name := "remove-future-imports"
  summary := "Remove deprecated `__future__` imports"
  references := links [manual "library/__future__.html"]
  work := Task.dropSettledFeatures

def plainTexts : Codemod where
  name := "remove-unnecessary-f-str"
  summary := "Remove Unnecessary F-strings"
  description := "Converts f-strings which perform no formatting to regular strings."
  references := links ["https://pylint.readthedocs.io/en/latest/user_guide/messages/warning/f-string-without-interpolation.html",
    "https://github.com/Instagram/LibCST/blob/main/libcst/codemod/commands/unnecessary_format_string.py"]
  work := Task.plainTexts

def dropUnusedImports : Codemod where
  name := "unused-imports"
  summary := "Remove Unused Imports"
  description := "Remove unused imports from a module."
  changeText := "Unused import."
  maker := core "remove_unused_imports.RemoveUnusedImports"
  work := Task.dropUnusedImports

def verifyCertificates : Codemod where
  name := "requests-verify"
  summary := "Verify SSL Certificates for Requests."
  description := "Makes any calls to requests.\x7bfunc\x7d with `verify=False` to `verify=True`."
  guidance := .cursoryReview
  references := links ["https://requests.readthedocs.io/en/latest/api/", owasp "attacks/Manipulator-in-the-middle_attack"]
  byFindings := true
  work := Task.verifyCertificates

def secureCookies : Codemod where
  name := "secure-flask-cookie"
  summary := "Use Safe Parameters in `flask` Response `set_cookie` Call"
  description := "Flask response `set_cookie` call should be called with `secure=True`, `httponly=True`, and `samesite='Lax'`."
  guidance := .cursoryReview
  references := links ["https://flask.palletsprojects.com/en/3.0.x/api/#flask.Response.set_cookie",
    owasp "controls/SecureCookieAttribute"]
  byFindings := true
  work := Task.secureCookies

def useSecureRandom : Codemod where
  name := "secure-random"
  summary := "Secure Source of Randomness"
  description := "Replaces random.\x7bfunc\x7d with more secure secrets library functions."
  guidance := .cursoryReview
  references := links [owasp "vulnerabilities/Insecure_Randomness", manual "library/random.html"]
  byFindings := true
  work := Task.useSecureRandom

def makeTempfiles : Codemod where
  name := "secure-tempfile"
  summary := "Upgrade and Secure Temp File Creation"
  description := "Replaces `tempfile.mktemp` with `tempfile.mkstemp`."
  references := links [manual "library/tempfile.html#tempfile.mktemp"]
  byFindings := true
  maker := core "tempfile_mktemp.TempfileMktemp"
  work := Task.makeTempfiles

def raiseMinimumVersion : Codemod where
  name := "upgrade-sslcontext-minimum-version"
  summary := "Upgrade SSLContext Minimum Version"
  description := "Replaces minimum SSL/TLS version for SSLContext."
  references := onProtocols
  byFindings := true
  maker := core "upgrade_sslcontext_minimum_version.UpgradeSSLContextMinimumVersion"
  work := Task.raiseMinimumVersion

def upgradeProtocol : Codemod where
  name := "upgrade-sslcontext-tls"
  summary := "Upgrade TLS Version In SSLContext"
  description := "Replaces known insecure TLS/SSL protocol versions in SSLContext with secure ones."
  guidance := .cursoryReview
  references := onProtocols
  byFindings := true
  maker := core "upgrade_sslcontext_tls.UpgradeSSLContextTLS"
  work := Task.upgradeProtocol

def guardRequests : Codemod where
  name := "url-sandbox"
  summary := "Sandbox URL Creation"
  description := "Replaces request.\x7bfunc\x7d with more secure safe_request library functions."
  changeText := "Switch use of requests for security.safe_requests"
  guidance := .cursoryReview
  references := links ["https://github.com/pixee/python-security/blob/main/src/security/safe_requests/api.py",
    "https://portswigger.net/web-security/ssrf",
    cheatSheet "Server_Side_Request_Forgery_Prevention_Cheat_Sheet.html",
    "https://www.rapid7.com/blog/post/2021/11/23/owasp-top-10-deep-dive-defending-against-server-side-request-forgery/",
    "https://blog.assetnote.io/2021/01/13/blind-ssrf-chains/"]
  byFindings := true
  addsDependency := true
  work := Task.guardRequests

def defuseXml : Codemod where
  name := "use-defusedxml"
  summary := "Use `defusedxml` for Parsing XML"
  description := "Replace builtin xml method with safe defusedxml method"
  guidance := .review
  references := links [manual "library/xml.html#xml-vulnerabilities", manual "library/xml.html#the-defusedxml-package",
    "https://pypi.org/project/defusedxml/",
    cheatSheet "XML_External_Entity_Prevention_Cheat_Sheet.html"]
  addsDependency := true
  maker := core "use_defused_xml.UseDefusedXml"
  work := Task.defuseXml

def useGenerators : Codemod where
  name := "use-generator"
  summary := "Use Generator Expressions Instead of List Comprehensions"
  description := "Replace list comprehension with generator expression"
  references := links ["https://pylint.readthedocs.io/en/latest/user_guide/messages/refactor/use-a-generator.html",
    manual "glossary.html#term-generator-expression",
    manual "glossary.html#term-list-comprehension"]
  work := Task.useGenerators

def useWalrus : Codemod where
  name := "use-walrus-if"
  summary := "Use Assignment Expression (Walrus) In Conditional"
  description := "Replaces multiple expressions involving `if` operator with 'walrus' operator."
  guidance := .cursoryReview
  references := links [manual "whatsnew/3.8.html#assignment-expressions"]
  work := Task.useWalrus

def nameLocks : Codemod where
  name := "bad-lock-with-statement"
  summary := "Separate Lock Instantiation from `with` Call"
  description := "Replace deprecated usage of threading lock classes as context managers."
  references := links ["https://pylint.pycqa.org/en/latest/user_guide/messages/warning/useless-with-lock.",
    manual "library/threading.html#using-locks-conditions-and-semaphores-in-the-with-statement"]
  byFindings := true
  maker := core "with_threading_lock.WithThreadingLock"
  prepare := fun t => t.withScopes (.ok ())
  work := Task.nameLocks

def parameterizeQueries : Codemod where
  name := "sql-parameterization"
  summary := "Parameterize SQL Queries"
  changeText := "Parameterized SQL query execution."
  guidance := .cursoryReview
  references := links ["https://cwe.mitre.org/data/definitions/89.html", owasp "attacks/SQL_Injection"]
  maker := core "sql_parameterization.SQLQueryParameterization"
  work := Task.parameterizeQueries

def secureSessions : Codemod where
  name := "secure-flask-session-configuration"
  summary := "Flip Insecure `Flask` Session Configurations"
  description := "Flip Flask session configuration if defined as insecure."
  guidance := .review
  references := links [owasp "controls/SecureCookieAttribute", cheatSheet "Session_Management_Cheat_Sheet.html"]
  maker := core "secure_flask_session_config.SecureFlaskSessionConfig"
  work := Task.secureSessions

def closeFiles : Codemod where
  name := "fix-file-resource-leak"
  summary := "Automatically Close Resources"
  references := links ["https://cwe.mitre.org/data/definitions/772.html", "https://cwe.mitre.org/data/definitions/404.html"]
  maker := core "file_resource_leak.FileResourceLeak"
  work := Task.closeFiles

def putReceiversFirst : Codemod where
  name := "django-receiver-on-top"
  summary := "Ensure Django @receiver is the first decorator"
  references := links ["https://docs.djangoproject.com/en/4.1/topics/signals/"]
  work := Task.putReceiversFirst

def askForNan : Codemod where
  name := "numpy-nan-equality"
  summary := "Replace == comparison with numpy.isnan()"
  references := links ["https://numpy.org/doc/stable/reference/constants.html#numpy.nan"]
  work := Task.askForNan

def setContentType : Codemod where
  name := "django-json-response-type"
  summary := "Set content type to `application/json` for `django.http.HttpResponse` with JSON data"
  description := "Sets `content_type` to `application/json`."
  references := links ["https://docs.djangoproject.com/en/4.0/ref/request-response/#django.http.HttpResponse.__init__",
    cheatSheet "Cross_Site_Scripting_Prevention_Cheat_Sheet.html#output-encoding-for-javascript-contexts"]
  byFindings := true
  work := Task.setContentType

def setJsonType : Codemod where
  name := "flask-json-response-type"
  summary := "Set content type to `application/json` for `flask.make_response` with JSON data"
  description := "Sets `mimetype` to `application/json`."
  references := links ["https://flask.palletsprojects.com/en/2.3.x/patterns/javascript/#return-json-from-views",
    cheatSheet "Cross_Site_Scripting_Prevention_Cheat_Sheet.html#output-encoding-for-javascript-contexts"]
  work := Task.setJsonType

def raiseForgotten : Codemod where
  name := "exception-without-raise"
  summary := "Ensure bare exception statements are raised"
  references := links [manual "tutorial/errors.html#raising-exceptions"]
  work := Task.raiseForgotten

def all : List Codemod :=
  [addTimeouts, disableDebug, secureSessionCookies, enableAutoescape, splitAbstractProperties,
    renewDefaults, useSafeLoader, useSafeType, secureConnections, verifyTokens, limitLines,
    restrictParsers, useRestrictedParser, orderImports, guardProcesses, dropSettledFeatures,
    plainTexts, dropUnusedImports, verifyCertificates, secureCookies, useSecureRandom,
    makeTempfiles, raiseMinimumVersion, upgradeProtocol, guardRequests, defuseXml,
    useGenerators, useWalrus, nameLocks, parameterizeQueries, secureSessions, closeFiles,
    putReceiversFirst, askForNan, setContentType, setJsonType, raiseForgotten]

def registry : Registry := Registry.addAll {} "pixee" all

end Mender.Catalogue
