import BuildMeta.CommandLine.Basic
import BuildMeta.Host

/-!
# Switches that choose a flavour

The switches by which the flavour of a build is chosen on a command line.
-/

namespace BuildMeta.Ufid

open CommandLine

/-- The switches that choose a flavour on a host. -/
def switches (h : Host) : List Switch :=
  [{ names := ["--abi-bits"], action := .choice [some "32", some "64"]
     start := some (.str (if h.isWide then "64" else "32"))
     help := "ABI bits (32/64) [default: %default]" },
    { names := ["--build-type"], action := .choice [some "release", some "debug"]
      start := some (.str "debug")
      help := "the type of build to produce (debug/release) [default: %default]" },
    { names := ["--library-type"], action := .choice [some "static", some "shared"]
      start := some (.str "static")
      help := "the type of libraries to build (shared/static) [default: %default]" },
    { names := ["--noexception"], action := .flag true, start := some (.bool false)
      help := "disable exception support" },
    { names := ["--safe"], action := .flag true, start := some (.bool false)
      help := "define the macro \"BDE_BUILD_TARGET_SAFE\" as described in the component-level " ++
        "documentation of bsls_assert" },
    { names := ["--safe2"], action := .flag true, start := some (.bool false)
      help := "define the macro \"BDE_BUILD_TARGET_SAFE_2\" as described in the " ++
        "component-level documentation of bsls_assert" },
    { names := ["--cpp-std"], action := .choice [none, some "03", some "11"]
      help := "use a C++11 standard version (\"03\"/\"11\") [default value depends on compiler]" },
    { names := ["-t", "--ufid"]
      help := "the Unified Platform ID (UFID) identifying the build configuration (e.g., " ++
        "dbg_mt_exc). Note that specifying a UFID will overwrite other build configuration " ++
        "options such as --library_type" }]

end BuildMeta.Ufid
