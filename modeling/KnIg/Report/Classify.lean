/-
The path classification of the report server: the ordered profiles, the first that matches a path,
and the tables of ATT&CK techniques and tactics.
-/
import KnIg.Lib.Text

namespace KnIg.Report

open Lib.Text

inductive Severity
  | critical | high | medium | low
  deriving DecidableEq

def Severity.name : Severity → Str
  | critical => txt "Critical"
  | high => txt "High"
  | medium => txt "Medium"
  | low => txt "Low"

structure Profile where
  matchPath : Str → Bool
  category : Str
  severity : Severity
  mitre : List Str
  role : Str
  scenarios : List Str

def secretExts : List String := ["env", "secret", "key", "pem", "crt"]

def configExts : List String := ["yaml", "yml", "conf", "toml", "ini", "json"]

/-- Whether one of `/secret/`, `/secrets/`, `/credential/`, `/credentials/` occurs in a path. -/
def inSecretDir (p : Str) : Bool :=
  contains p "/secret/" || contains p "/secrets/" || contains p "/credential/" || contains p "/credentials/"

namespace Classify

/-- Where `$` matches: behind the last character, and before a newline that is the last character. -/
def dollar (p : Str) : List Str := if p.getLast? = some 10 then [p.dropLast, p] else [p]

/-- `re.search` of an extension before `$`. -/
def searchExt (words : List String) (p : Str) : Bool := (dollar p).any (hasExt words)

def shadow : Profile where
  matchPath p := p == txt "/etc/shadow" || p == txt "/etc/gshadow"
  category := txt "사용자 자격 증명 저장소"
  severity := .critical
  mitre := [txt "T1003.008", txt "T1098"]
  role :=
    txt "시스템에 등록된 모든 사용자의 암호화된 비밀번호 정보를 저장하는 자원입니다. 무결성이 손상되면 임의 계정의 비밀번호가 재설정되거나 인증 우회 백도어가 형성될 수 있습니다."
  scenarios := [
    txt "초기 침투에 성공한 위협 주체가 운영 계정 비밀번호를 자신이 아는 값으로 재설정해 영구 접근 경로를 확보하려는 시도입니다.",
    txt "비밀번호 해시 필드를 비활성 값으로 대체해 비밀번호 없이 인증이 통과되도록 만드는 변조 시도입니다."]

def passwd : Profile where
  matchPath p := p == txt "/etc/passwd" || p == txt "/etc/group"
  category := txt "사용자 계정 데이터베이스"
  severity := .critical
  mitre := [txt "T1136.001", txt "T1098"]
  role :=
    txt "시스템에 등록된 사용자 및 그룹 정보를 보관하는 자원으로, 변조 시 신규 관리자 권한 계정 추가나 기존 계정 권한 변경이 발생할 수 있습니다."
  scenarios := [
    txt "UID 0(관리자) 신규 계정을 추가해 백도어 형태의 영구 접근 경로를 확보하려는 시도입니다.",
    txt "기존 시스템 계정의 로그인 셸을 인터랙티브 셸로 바꿔 침투 통로로 전환하려는 시도입니다."]

def sudoers : Profile where
  matchPath p := p == txt "/etc/sudoers" || startsWith p "/etc/sudoers.d/" || p == txt "/usr/bin/sudo"
  category := txt "권한 상승 정책 및 도구"
  severity := .critical
  mitre := [txt "T1548.003", txt "T1554"]
  role :=
    txt "일반 사용자에게 일시적 관리자 권한을 부여하는 정책 파일 또는 도구로, 변조 시 무인증 권한 상승 통로나 자격 증명 탈취 백도어가 형성될 수 있습니다."
  scenarios := [
    txt "특정 사용자에 무비밀번호 관리자 권한 항목을 삽입해 권한 상승 인증 절차를 무력화하려는 시도입니다.",
    txt "권한 상승 도구 자체에 트로이 목마를 삽입해 사용할 때마다 자격 증명이 유출되도록 만드는 시도입니다."]

def ssh : Profile where
  matchPath p := p == txt "/etc/ssh/sshd_config" || startsWith p "/etc/ssh/"
  category := txt "원격 접근 제어 정책"
  severity := .critical
  mitre := [txt "T1098.004", txt "T1556"]
  role :=
    txt "외부 호스트에서 원격 접속할 때 적용되는 인증·접근 제어 정책을 정의하는 자원입니다. 변조 시 관리자 직접 로그인 허용, 비인가 키 추가 등 원격 접근 정책 전반이 무력화될 수 있습니다."
  scenarios := [
    txt "관리자 계정의 직접 원격 로그인을 재허용해 무차별 추측 공격에 노출시키는 정책 변경 시도입니다.",
    txt "공격자가 통제하는 인증 키를 등록해 발각 이후에도 재침투 가능한 영구 통로를 확보하려는 시도입니다."]

def cron : Profile where
  matchPath p := p == txt "/etc/crontab" || startsWith p "/etc/cron." || startsWith p "/var/spool/cron/"
  category := txt "스케줄러 / 자동 실행 영속성 메커니즘"
  severity := .high
  mitre := [txt "T1053.003"]
  role :=
    txt "주기적으로 자동 실행될 작업을 정의하는 파일입니다. 변조 시 공격자 페이로드가 재기동·프로세스 종료 후에도 자동 복구되어 영구 침입 통로가 유지될 수 있습니다."
  scenarios := [
    txt "단주기로 외부 C2 서버에 콜백하는 항목을 삽입해 단발 차단 후에도 즉시 재접속하는 통로를 확보하려는 시도입니다.",
    txt "@reboot 지시자로 부팅 시 실행되는 백도어를 등록하려는 시도입니다."]

def systemd : Profile where
  matchPath p :=
    startsWith p "/etc/systemd/" || startsWith p "/lib/systemd/system/" ||
    startsWith p "/usr/lib/systemd/system/"
  category := txt "systemd 서비스 / 자동 실행 영속성 메커니즘"
  severity := .high
  mitre := [txt "T1543.002", txt "T1565.001"]
  role :=
    txt "부팅·서비스 재시작 시 자동 실행되는 systemd 유닛 정의입니다. 변조 시 정상 서비스처럼 위장한 백도어 또는 명령 실행 경로가 지속적으로 복구될 수 있습니다."
  scenarios := [
    txt "정상 점검 서비스처럼 보이는 유닛을 등록해 재부팅 후에도 공격자 스크립트가 자동 실행되도록 만드는 시도입니다.",
    txt "기존 서비스의 ExecStart·Environment 값을 변조해 정상 프로세스 실행 흐름에 공격자 명령을 끼워 넣는 시도입니다."]

def secrets : Profile where
  matchPath p := searchExt secretExts p || inSecretDir p
  category := txt "비밀 정보 저장 파일"
  severity := .high
  mitre := [txt "T1552.001", txt "T1485"]
  role :=
    txt "DB 자격 증명, API 키, TLS 인증서 등 민감 정보를 보관하는 자원입니다. 변조 시 정상 연동이 공격자 인프라로 우회되거나, 삭제 시 서비스 중단·흔적 인멸의 신호일 수 있습니다."
  scenarios := [
    txt "DB 접속 정보를 공격자 통제 인스턴스로 변조해 중간자 공격 또는 자격 증명 수집 통로를 형성하려는 시도입니다.",
    txt "외부 API 키를 유출한 뒤 흔적 제거 목적으로 파일을 삭제하려는 시도입니다."]

def varLog : Profile where
  matchPath p := startsWith p "/var/log/"
  category := txt "감사 로그"
  severity := .high
  mitre := [txt "T1070.002", txt "T1070.004"]
  role :=
    txt "시스템·애플리케이션 활동의 감사 추적 데이터를 보관하는 파일입니다. 삭제·변조는 일반적으로 흔적 인멸 활동의 강력한 지표로 해석됩니다."
  scenarios := [
    txt "이미 침투한 위협 주체가 자신의 활동 흔적을 제거해 탐지를 지연시키려는 시도입니다.",
    txt "랜섬웨어 작동 직전 단계로 백업·감사 로그를 사전 무력화하는 패턴일 가능성이 있습니다."]

def lib : Profile where
  matchPath p := startsWith p "/usr/lib/" || startsWith p "/lib/" || startsWith p "/lib64/"
  category := txt "시스템 핵심 라이브러리"
  severity := .critical
  mitre := [txt "T1574.006", txt "T1554"]
  role :=
    txt "다수 시스템 프로그램이 공통으로 사용하는 동적 링크 라이브러리입니다. 변조 시 해당 라이브러리를 사용하는 모든 호출자에게 페이로드가 동시 주입되는 광범위 영향이 발생합니다."
  scenarios := [
    txt "암호화 라이브러리에 백도어를 삽입해 TLS 트래픽 가로채기 또는 키 자료 유출을 시도합니다.",
    txt "사용자 공간 후킹 루트킷을 설치해 운영 도구 출력에서 공격자 활동을 은폐합니다."]

def bin : Profile where
  matchPath p :=
    startsWith p "/usr/bin/" || startsWith p "/usr/sbin/" || startsWith p "/bin/" ||
    startsWith p "/sbin/"
  category := txt "운영체제 표준 실행 파일"
  severity := .high
  mitre := [txt "T1554", txt "T1036.005"]
  role :=
    txt "운영체제가 기본 제공하는 표준 명령어 파일입니다. 변조 시 해당 명령어를 사용하는 모든 호출자가 영향받는 호스트 내 공급망 침해가 발생할 수 있습니다."
  scenarios := [
    txt "프로세스·네트워크 조회 도구를 변조해 공격자 프로세스·연결을 결과에서 제외하는 사용자 공간 루트킷 패턴입니다.",
    txt "표준 설치 절차를 경유하지 않은 직접 교체로 패키지 무결성 검증을 우회하려는 시도입니다."]

def localTools : Profile where
  matchPath p :=
    startsWith p "/usr/local/bin/" || startsWith p "/usr/local/sbin/" ||
    (startsWith p "/opt/" && contains p "/bin/")
  category := txt "관리자 설치 운영 도구"
  severity := .high
  mitre := [txt "T1554"]
  role :=
    txt "관리자가 표준 패키지 외로 직접 배치한 운영 도구입니다. 변조 시 운영자가 일상적으로 사용하는 도구가 위협 주체 통제 하에 놓입니다."
  scenarios := [
    txt "운영자가 빈번히 호출하는 도구를 변조해 호출 시마다 자격 증명·세션 정보를 외부로 유출시키려는 시도입니다.",
    txt "정상 배포 절차 외의 직접 교체로 변경 관리 절차를 우회하려는 신호로 해석됩니다."]

def web : Profile where
  matchPath p := startsWith p "/etc/nginx/" || startsWith p "/etc/httpd/" || startsWith p "/etc/apache2/"
  category := txt "웹 서버 설정"
  severity := .high
  mitre := [txt "T1556", txt "T1071.001"]
  role :=
    txt "리버스 프록시, 가상 호스트, TLS 인증 등 웹 트래픽 라우팅·접근 제어 정책을 정의하는 설정입니다. 변조 시 트래픽 우회, 인증 우회, 감사 로그 비활성화가 가능해집니다."
  scenarios := [
    txt "관리 엔드포인트의 IP 화이트리스트 제한을 해제해 외부 직접 접근을 허용하려는 시도입니다.",
    txt "접근·오류 로그 기록을 비활성화해 흔적을 최소화하려는 변조 시도입니다."]

def resolver : Profile where
  matchPath p := p == txt "/etc/resolv.conf" || p == txt "/etc/hosts" || p == txt "/etc/nsswitch.conf"
  category := txt "네트워크 이름 해석 설정"
  severity := .high
  mitre := [txt "T1565.001", txt "T1071.004"]
  role :=
    txt "DNS 서버, 정적 호스트 매핑, 이름 해석 우선순위를 정의하는 파일입니다. 변조 시 시스템의 모든 외부 호출이 공격자 통제 인프라로 우회될 수 있습니다."
  scenarios := [
    txt "DNS 서버를 공격자 리졸버로 변경해 라이브러리·패키지 미러 응답을 위조하는 시도입니다.",
    txt "/etc/hosts에 정상 도메인을 공격자 IP로 매핑해 보안 검증을 우회하려는 시도입니다."]

def config : Profile where
  matchPath p := startsWith p "/etc/myapp/" || (startsWith p "/etc/" && searchExt configExts p)
  category := txt "애플리케이션 / 시스템 구성 파일"
  severity := .high
  mitre := [txt "T1565.001"]
  role :=
    txt "서비스 동작을 결정하는 구성 파일입니다. 변조 시 보안 정책 비활성화, 외부 엔드포인트 변경, 기능 플래그 토글 등 광범위한 영향이 발생할 수 있습니다."
  scenarios := [
    txt "보안 옵션(TLS 검증, 인증 미들웨어)을 비활성화하려는 시도입니다.",
    txt "외부 호출 엔드포인트를 공격자 인프라로 교체해 트래픽 가로채기를 시도하는 변조입니다."]

def webRoot : Profile where
  matchPath p := startsWith p "/var/www/" || startsWith p "/usr/share/nginx/html/"
  category := txt "웹 콘텐츠"
  severity := .medium
  mitre := [txt "T1491.001", txt "T1189"]
  role :=
    txt "공개 웹 서버가 서빙하는 정적 콘텐츠입니다. 변조 시 디페이스 또는 악성 스크립트 삽입을 통한 방문자 공격이 가능해집니다."
  scenarios := [
    txt "JavaScript 삽입을 통한 방문자 대상 자격 증명 피싱·페이로드 배포 시도입니다.",
    txt "콘텐츠 관리 시스템을 통한 정상 콘텐츠 갱신일 가능성도 존재합니다."]

def temp : Profile where
  matchPath p := startsWith p "/tmp/" || startsWith p "/var/tmp/" || startsWith p "/dev/shm/"
  category := txt "임시 작업 영역"
  severity := .medium
  mitre := [txt "T1074.001", txt "T1059.004"]
  role :=
    txt "재기동 시 휘발되는 임시 디렉터리입니다. 정상 사용도 많지만 숨김 파일·실행 권한 스크립트는 위협 주체 페이로드 stage 위치로 빈번히 활용됩니다."
  scenarios := [
    txt "위협 주체가 도구·페이로드 사용 후 흔적 제거를 위해 임시 파일을 삭제한 시도입니다.",
    txt "정상 빌드·캐시 파일이 정리된 운영 작업일 가능성도 존재합니다."]

def defaultProfile : Profile where
  matchPath _ := true
  category := txt "기타 보호 경로"
  severity := .medium
  mitre := [txt "T1565"]
  role :=
    txt "보호 대상으로 등록된 경로이며, 호스트의 운영 역할에 따라 무결성 손상 시 영향이 다양하게 나타날 수 있습니다."
  scenarios := [
    txt "정상 운영 변경이 변경 관리 절차 외 경로로 수행된 경우입니다.",
    txt "위협 주체가 보호 경로 목록을 사전 인지하지 못한 채 시도한 경우입니다."]

def profiles : List Profile :=
  [shadow, passwd, sudoers, ssh, cron, systemd, secrets, varLog, lib, bin, localTools, web, resolver, config,
    webRoot, temp]

def classify (path : Str) : Profile := firstMatch (·.matchPath path) defaultProfile profiles

/-! ## Techniques -/

def mitreGlossary : List (Str × Str × Str) := [
  (txt "T1003", txt "자격증명 추출",
    txt "시스템에 저장된 로그인 자격증명을 비인가 경로로 획득하려는 행위입니다."),
  (txt "T1003.008", txt "OS 자격증명 추출 (/etc/passwd & /etc/shadow)",
    txt "시스템에 저장된 로그인 자격증명을 비인가 경로로 획득하려는 행위입니다."),
  (txt "T1036", txt "정상 위치·이름 위장",
    txt "정상 명령어와 같은 이름·위치를 사용해 악성 프로그램을 위장하는 행위입니다."),
  (txt "T1036.005", txt "정상 위치·이름 위장",
    txt "정상 명령어와 같은 이름·위치를 사용해 악성 프로그램을 위장하는 행위입니다."),
  (txt "T1053", txt "예약 작업 (cron)",
    txt "cron에 작업을 심어 주기적 실행과 지속성을 확보합니다."),
  (txt "T1053.003", txt "예약 작업 (cron)",
    txt "cron에 작업을 심어 주기적 실행과 지속성을 확보합니다."),
  (txt "T1059", txt "명령·스크립트 실행",
    txt "셸·인터프리터로 임의 명령을 실행하는 행위입니다."),
  (txt "T1059.004", txt "유닉스 셸 명령 실행",
    txt "유닉스 셸을 통해 임의 명령을 실행하는 행위입니다."),
  (txt "T1059.006", txt "Python 실행",
    txt "Python 인터프리터로 임의 스크립트 또는 명령을 실행하는 행위입니다."),
  (txt "T1068", txt "취약점 악용 권한 상승",
    txt "소프트웨어 취약점을 악용해 더 높은 권한을 획득하는 행위입니다."),
  (txt "T1070", txt "흔적 삭제",
    txt "시스템·감사 로그를 삭제해 공격 흔적을 제거하고 탐지를 회피합니다."),
  (txt "T1070.002", txt "로그 삭제",
    txt "시스템·감사 로그를 삭제해 공격 흔적을 제거하고 탐지를 회피합니다."),
  (txt "T1070.004", txt "파일 삭제",
    txt "침해 증거가 될 수 있는 파일을 삭제하는 행위입니다."),
  (txt "T1071", txt "응용 계층 프로토콜 악용",
    txt "정상 통신을 가장해 공격자 인프라와 정보를 주고받는 행위입니다."),
  (txt "T1071.001", txt "웹 프로토콜 악용 통신",
    txt "정상 웹 통신을 가장해 공격자 인프라와 정보를 주고받는 행위입니다."),
  (txt "T1071.004", txt "DNS 통신 악용",
    txt "도메인 이름 해석 통신을 이용해 공격자 인프라와 정보를 주고받는 행위입니다."),
  (txt "T1074", txt "데이터 스테이징",
    txt "수집·실행할 파일을 임시 위치에 모아 다음 단계 공격을 준비하는 행위입니다."),
  (txt "T1074.001", txt "로컬 데이터 스테이징",
    txt "로컬 임시 디렉터리 등에 도구·페이로드를 모아 실행 또는 반출을 준비하는 행위입니다."),
  (txt "T1078", txt "유효 계정",
    txt "탈취한 정상 계정으로 접근·지속·권한 상승을 수행하는 행위입니다."),
  (txt "T1098", txt "계정 조작",
    txt "기존 계정의 인증 정보·권한을 임의로 변경해 지속적 접근 통로를 확보합니다."),
  (txt "T1098.004", txt "SSH 인증 키 추가",
    txt "공격자 인증 키를 등록해 영구적 원격 접근 통로를 확보하는 행위입니다."),
  (txt "T1136", txt "계정 생성",
    txt "공격자만 사용 가능한 신규 계정을 시스템에 추가하는 행위입니다."),
  (txt "T1136.001", txt "로컬 계정 생성",
    txt "공격자만 사용 가능한 로컬 계정을 추가하는 행위입니다."),
  (txt "T1485", txt "데이터 파괴",
    txt "중요 파일을 삭제해 서비스 중단·흔적 제거를 유도하는 행위입니다."),
  (txt "T1491", txt "디페이스",
    txt "표시 콘텐츠를 변조해 메시지를 표시하거나 신뢰를 훼손하는 행위입니다."),
  (txt "T1491.001", txt "내부 디페이스",
    txt "내부 시스템에 표시되는 콘텐츠를 변조하는 행위입니다."),
  (txt "T1189", txt "방문자 대상 침해",
    txt "변조된 웹페이지를 통해 방문자 시스템에 악성 코드를 배포하려는 행위입니다."),
  (txt "T1543", txt "systemd 서비스",
    txt "정상 서비스로 위장한 서비스를 등록해 재부팅 후에도 지속성을 확보합니다."),
  (txt "T1543.002", txt "systemd 서비스 생성/변조",
    txt "정상 서비스로 위장한 서비스를 등록해 재부팅 후에도 지속성을 확보합니다."),
  (txt "T1548", txt "권한 상승 메커니즘 악용",
    txt "권한 부여 메커니즘(sudo 등)을 악용해 권한을 획득하는 행위입니다."),
  (txt "T1548.003", txt "Sudo 및 Sudo 캐싱 악용",
    txt "sudo 권한 정책을 악용해 일반 계정이 관리자 권한을 획득합니다."),
  (txt "T1552", txt "비보호 자격 증명",
    txt "파일·환경 등에 저장된 자격 증명을 비인가 경로로 획득하는 행위입니다."),
  (txt "T1552.001", txt "파일 내 자격 증명 노출",
    txt "비밀번호·인증 키가 저장된 파일을 비인가 경로로 획득하는 행위입니다."),
  (txt "T1554", txt "신뢰 프로그램 변조",
    txt "신뢰받는 시스템 프로그램에 악성 코드를 삽입하는 행위입니다."),
  (txt "T1556", txt "인증 절차 변조",
    txt "로그인 검증 과정 자체를 조작해 정상 인증을 우회합니다."),
  (txt "T1565", txt "데이터 조작",
    txt "시스템에 저장된 데이터를 임의로 변경해 동작을 왜곡하는 행위입니다."),
  (txt "T1565.001", txt "저장 데이터 조작",
    txt "디스크에 저장된 설정·데이터를 임의로 변경해 시스템 동작을 왜곡하는 행위입니다."),
  (txt "T1574", txt "실행 흐름 가로채기",
    txt "정상 실행 흐름에 개입해 공격자 코드가 실행되도록 만드는 행위입니다."),
  (txt "T1574.006", txt "LD_PRELOAD를 통한 실행 흐름 가로채기",
    txt "정상 라이브러리를 우선 로드시켜 모든 호출에 공격자 코드가 개입하게 만드는 행위입니다.")]

/-- A tactic: its names and its phase of the kill chain. -/
structure Tactic where
  ko : Str
  en : Str
  phase : Nat

def techTactic : List (Str × Tactic) := [
  (txt "T1078", ⟨txt "초기 접근", txt "Initial Access", 0⟩),
  (txt "T1189", ⟨txt "초기 접근", txt "Initial Access", 0⟩),
  (txt "T1003", ⟨txt "자격증명 접근", txt "Credential Access", 2⟩),
  (txt "T1552", ⟨txt "자격증명 접근", txt "Credential Access", 2⟩),
  (txt "T1548", ⟨txt "권한 상승", txt "Privilege Esc.", 1⟩),
  (txt "T1068", ⟨txt "권한 상승", txt "Privilege Esc.", 1⟩),
  (txt "T1098", ⟨txt "지속성", txt "Persistence", 1⟩),
  (txt "T1136", ⟨txt "지속성", txt "Persistence", 1⟩),
  (txt "T1543", ⟨txt "지속성", txt "Persistence", 1⟩),
  (txt "T1053", ⟨txt "지속성", txt "Persistence", 1⟩),
  (txt "T1554", ⟨txt "지속성", txt "Persistence", 1⟩),
  (txt "T1556", ⟨txt "방어 회피", txt "Defense Evasion", 3⟩),
  (txt "T1070", ⟨txt "방어 회피", txt "Defense Evasion", 3⟩),
  (txt "T1036", ⟨txt "방어 회피", txt "Defense Evasion", 3⟩),
  (txt "T1574", ⟨txt "방어 회피", txt "Defense Evasion", 3⟩),
  (txt "T1071", ⟨txt "방어 회피", txt "Defense Evasion", 3⟩),
  (txt "T1074", ⟨txt "방어 회피", txt "Defense Evasion", 3⟩),
  (txt "T1059", ⟨txt "방어 회피", txt "Defense Evasion", 3⟩),
  (txt "T1565", ⟨txt "영향", txt "Impact", 4⟩),
  (txt "T1485", ⟨txt "영향", txt "Impact", 4⟩),
  (txt "T1491", ⟨txt "영향", txt "Impact", 4⟩)]

def tacticOrder : List (Str × Str) := [
  (txt "초기 접근", txt "Initial Access"),
  (txt "자격증명 접근", txt "Credential Access"),
  (txt "권한 상승", txt "Privilege Esc."),
  (txt "지속성", txt "Persistence"),
  (txt "방어 회피", txt "Defense Evasion"),
  (txt "영향", txt "Impact")]

def killPhases : List Str :=
  [txt "초기 접근", txt "권한 상승", txt "자격증명 접근", txt "방어 회피", txt "영향"]

/-- A technique without its sub-technique. -/
def baseId (tech : Str) : Str := before 46 tech

/-- The glossary's row for a technique. -/
def glossaryGet (tech : Str) : Option (Str × Str) := mitreGlossary.lookup tech

/-- The row for a technique, or else for its base technique. -/
def glossaryMeta (tech : Str) : Option (Str × Str) := (glossaryGet tech).or (glossaryGet (baseId tech))

def techName (tech : Str) : Str := ((glossaryMeta tech).map (·.1)).getD tech

def tacticOf (tech : Str) : Tactic :=
  (techTactic.lookup (baseId tech)).getD ⟨txt "방어 회피", txt "Defense Evasion", 3⟩

end Classify

end KnIg.Report
