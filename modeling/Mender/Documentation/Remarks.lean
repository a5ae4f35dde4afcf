import Mender.Documentation.Articles

/-!
# Remarks for the documentation

What the documentation says about each codemod besides its article: how important it is, and why its changes
ask for as much attention as they do.
-/

namespace Mender.Documentation

/-- What a page of the documentation says besides an article. -/
structure Remark where
  importance : String
  /-- why the changes ask for this much attention -/
  reason : String
  needsScanner : String := "No"
  deriving Inhabited

def remark (name importance reason : String) : String × Remark := (name, { importance, reason })

def newerTls : String := "This codemod updates the minimum supported version of TLS. Since this is an important security fix and since all modern servers offer TLSv1.2, we believe this change can be safely merged without review."

def saferParsers : String :=
  "We believe this change is safe, effective, and protects your code against very serious security attacks."

def sameData : String := "This change will only restrict the response type and will not alter the response data itself. Thus we deem it safe."

def remarks : List (String × Remark) := [
  remark "add-requests-timeouts" "Medium" "This change makes your code safer but in some cases it may be necessary to adjust the timeout value for your particular application.",
  remark "django-debug-flag-on" "Medium" "Django's `DEBUG` flag may be overridden somewhere else or the runtime settings file may be set with the `DJANGO_SETTINGS_MODULE` environment variable. This means that the `DEBUG` flag may intentionally be left on as a development aid.",
  remark "django-session-cookie-secure-off" "Medium" "Django's `SESSION_COOKIE_SECURE` flag may be overridden somewhere else or the runtime settings file may be set with the `DJANGO_SETTINGS_MODULE` environment variable. This means that the flag may intentionally be left off or missing. Also some applications may still want to support pure http. This is often the case for legacy apps.",
  remark "enable-jinja2-autoescape" "High" "This codemod protects your applications against XSS attacks. We believe using the default behavior is unsafe.",
  remark "fix-mutable-params" "Medium" "We believe that this codemod fixes an unsafe practice and that the changes themselves are safe and reliable.",
  remark "harden-pyyaml" "Medium" "This codemod replaces any unsafe loaders with the `SafeLoader`, which is already the recommended replacement suggested in `yaml` documentation. We believe this replacement is safe and should not result in any issues.",
  remark "harden-ruamel" "Medium" "This codemod replaces any unsafe `typ` argument with `typ='safe'`, which makes safety explicit and is one of the recommended uses suggested in `ruamel` documentation. We believe this replacement is safe and should not result in any issues.",
  remark "https-connection" "High" "Support for HTTPS is widespread which, save in some legacy applications, makes this change safe.",
  remark "jwt-decode-verify" "High" "This codemod ensures your code uses all available validations when calling `jwt.decode`. We believe this replacement is safe and should not result in any issues.",
  remark "limit-readline" "Medium" "This codemod sets a maximum of 5MB allowed per line read by default. It is unlikely but possible that your code may receive lines that are greater than 5MB _and_ you'd still be interested in reading them, so there is some nominal risk of exceptional cases.",
  remark "safe-lxml-parser-defaults" "High" saferParsers,
  remark "safe-lxml-parsing" "High" saferParsers,
  remark "order-imports" "Low" "TODO SKIP FOR NOW",
  remark "sandbox-process-creation" "High" "We believe this change is safe and effective. The behavior of sandboxing `subprocess.run` and `subprocess.call` calls will only throw `SecurityException` if they see behavior involved in malicious code execution, which is extremely unlikely to happen in normal operation.",
  remark "remove-unnecessary-f-str" "Low" "We believe this codemod is safe and will not cause any issues.",
  remark "unused-imports" "Low" "We believe this codemod is safe and will not cause any issues. It is important to note that importing modules may have side-effects that alter the behavior, even if unused, but we believe those cases are rare enough to be safe.",
  remark "requests-verify" "High" "There may be times when setting `verify=False` is useful for testing though we discourage it. 
You may also decide to set `verify=/path/to/ca/bundle`. This codemod will not attempt to modify the `verify` value if you do set it to a path.",
  remark "secure-flask-cookie" "Medium" "Our change provides the most secure way to create cookies in Flask. However, it's possible you have configured your Flask application configurations to use secure cookies. In these cases, using the default parameters for `set_cookie` is safe.",
  remark "secure-random" "High" "While most of the functions in the `random` module aren't cryptographically secure, there are still valid use cases for `random.random()` such as for simulations or games.",
  remark "secure-tempfile" "High" "We believe this codemod is safe and will cause no unexpected errors.",
  remark "upgrade-sslcontext-minimum-version" "High" newerTls,
  remark "upgrade-sslcontext-tls" "High" newerTls,
  remark "url-sandbox" "High" (requestChecks ++ ".get(url, allowed_protocols=(\"ftp\",))
```"),
  remark "use-defusedxml" "High" "We believe this change is safe and effective and guards against serious XML vulnerabilities. You should review this code before merging to make sure the dependency has been properly added to your project.",
  remark "use-walrus-if" "Low" "We believe that using the walrus operator is an improvement in terms of clarity and readability. However, this change is only compatible with codebases that support Python 3.8 and later, so it requires quick validation before merging.",
  remark "bad-lock-with-statement" "Low" "We believe this replacement is safe and should not result in any issues.",
  remark "sql-parameterization" "High" "Python has a wealth of database drivers that all use the same `dbapi2` interface detailed in [PEP249](https://peps.python.org/pep-0249/). Different drivers may require different string tokens used for parameterization, and Python's dynamic typing makes it quite hard, and sometimes impossible, to detect which driver is being used just by looking at the code.",
  remark "use-generator" "Low" "We believe this replacement is safe and leads to better performance.",
  remark "secure-flask-session-configuration" "Medium" "Our change fixes explicitly insecure session configuration for a Flask application. However, there may be valid cases to use these insecure configurations, such as for testing or backward compatibility.",
  remark "fix-file-resource-leak" "High" "We believe this change is safe and will only close file resources that are not referenced outside of the with statement block.",
  remark "django-receiver-on-top" "Medium" "We believe this change leads to the intended behavior the application and is thus safe.",
  remark "numpy-nan-equality" "Medium" "We believe any use of `==` to compare with `numpy.nan` is unintended given that it is always `False`. Thus we consider this change safe.",
  remark "django-json-response-type" "Medium" sameData,
  remark "fix-deprecated-abstractproperty" "Low" "This change fixes deprecated uses and is safe.",
  remark "flask-json-response-type" "Medium" sameData,
  remark "exception-without-raise" "Low" "A statement with an exception by itself has no effect. Raising the exception is most likely the intended effect and thus we deem it safe.",
  remark "remove-future-imports" "Low" "Removing future imports is safe and will not cause any issues."]

end Mender.Documentation
